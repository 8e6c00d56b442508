import LedgerOne.Decoder.JoinedStaking
import LedgerOne.Decoder.StakingReader

/-!
# What `processStaking` reads in one piece of memory

The main loop of `processStaking`, over a content in one piece, follows the
course of `JoinedStaking` from place to place, and so its drawn-up layout.
-/

namespace LedgerOne

open Rlp Layout JoinedStaking

/-- The context stands in a place whose layout is drawn up far enough. -/
def ExpectsJoined (behind : Nat) (context : TxContext)
    (layout : Layout RlpStakingField (Option TxContent)) : Prop :=
  (∃ items, layout = (course behind).unfold items context.place ∧
    context.commandLength + enters context.stakeCurrentField < items) ∧
  layout ≠ .refuse

/-- The results that take a message with some content, and those that reject
it after its last field. -/
def Concludes (result : Int × TxContext) : Option TxContent -> Prop
  | some content => LeavesContent result content
  | none => result.1 ≠ 0

/-- `processStaking` where the content lies in one piece with bytes behind
it. -/
abbrev processStakingIn (behind : Nat) (buf : Region 1024)
    (context : TxContext) : Except Fault (Int × TxContext) :=
  @processStaking (.joined behind) buf context

/-- `processStaking` as a reader of the layout in one piece of memory. -/
abbrev joinedStakingReader (behind : Nat) (buf : Region 1024) :
    Realization Fault TxContext (Int × TxContext) RlpStakingField
      (Option TxContent) :=
  parserRealization buf stakingDone (@handleStakingField (.joined behind) buf)
    (ExpectsJoined behind) Concludes

section Steps

variable {behind items : Nat} {buf : Region 1024} {state : TxContext}
  {stream : List UInt8} {isList : Bool} {length : Nat}
  {body rest : List UInt8} {handled : TxContext} {tx : RlpTxField}
  {place : StakingPlace}

/-- Between two fields the layout of the place is expected. -/
theorem Handled.expectsJoined
    (facts : Handled buf handled tx place.field place.keyIndex place.content
      rest)
    (reads : Reads place.field)
    (enough : rest.length + enters place.field < items) :
    Clean buf handled rest ∧ stakingDone handled = false ∧
      ExpectsJoined behind handled ((course behind).unfold items place) := by
  have here : handled.place = place := by
    rw [TxContext.place, facts.content, facts.currentBlsKeyIndex,
      facts.stakeCurrentField]
  have left := facts.clean.holds.commandLength_eq
  refine ⟨facts.clean, ?_, ⟨items, by rw [here], ?_⟩, ?_⟩
  · have goesOn : place.field ≠ .done := by
      intro done
      rw [done] at reads
      exact reads
    simpa [stakingDone, facts.stakeCurrentField] using goesOn
  · rw [left, facts.stakeCurrentField]
    exact enough
  · cases items with
    | zero => omega
    | succ fewer => exact Course.unfold_ne_refuse (node_ne_refuse reads)

/-- A handler that only moves the machine enters a header. -/
theorem enters_of_place {next : Nat -> Layout RlpStakingField (Option TxContent)}
    {goes : Nat -> StakingPlace}
    (here : (course behind).node state.place = .enter goes)
    (drawn : ∀ length, next length = (course behind).unfold items (goes length))
    (enough : state.commandLength + enters state.stakeCurrentField < items + 1)
    (clean : Clean buf state stream) (goesOn : stakingDone state = false)
    (decoded : readHeader stream = .header isList length body)
    (handles : ∀ ready, Ready buf state ready length body ->
      ∃ reached tx, @handleStakingField (.joined behind) buf ready =
          .ok (.again reached) ∧
        Handled buf reached tx (goes length).field (goes length).keyIndex
          (goes length).content body) :
    ∃ reached, (joinedStakingReader behind buf).body.Round state reached ∧
      (joinedStakingReader behind buf).At reached (next length) body := by
  refine enters_of_handle next clean goesOn decoded fun ready atField => ?_
  obtain ⟨reached, tx, again, facts⟩ := handles ready atField
  obtain ⟨fewer, reads⟩ := enter_goes here length
  have shorter := length_body_le decoded
  have remaining := clean.holds.commandLength_eq
  have fewer : enters (goes length).field < enters state.stakeCurrentField :=
    fewer
  refine ⟨reached, again, ?_⟩
  rw [drawn]
  exact facts.expectsJoined reads (by omega)

/-- A handler that takes one field reads one item of the drawn-up layout. -/
theorem readsItem_of_place {capacity : Option Nat}
    {next : List UInt8 -> Layout RlpStakingField (Option TxContent)}
    {goes : List UInt8 -> Option StakingPlace} {out : Option Store}
    {after : TxContent}
    (here : (course behind).node state.place = .field capacity goes)
    (drawn : ∀ bytes, next bytes =
      (goes bytes).elim .refuse ((course behind).unfold items))
    (enough : state.commandLength + enters state.stakeCurrentField < items + 1)
    (record : TxContext -> TxContext) (prepare : TxContent -> TxContent)
    (post : TxContext -> Flow TxContext (Int × TxContext))
    (clean : Clean buf state stream) (goesOn : stakingDone state = false)
    (decoded : readHeader stream = .header isList length body)
    (handles : ∀ ready, Ready buf state ready length body ->
      @handleStakingField (.joined behind) buf ready =
        (takeField buf out record (ready.prepared prepare)).map post)
    (overruns : exceeds capacity (body.take length).length = true ->
      Overruns out (body.take length) (prepare state.content))
    (stores : exceeds capacity (body.take length).length = false ->
      Stores out length (body.take length) (prepare state.content) after)
    (moves : length ≤ body.length -> ∀ copied,
      Copied buf state copied after length (body.drop length) ->
      (∃ reached tx later, post { record copied with
          processingField := false } = .again reached ∧
        goes (body.take length) = some later ∧
        Handled buf reached tx later.field later.keyIndex later.content
          (body.drop length)) ∨
      (goes (body.take length) = none ∧ ∃ left,
        post { record copied with processingField := false } =
          .exit (-1, left)))
    (cutOff : ∀ copied, Copied buf state copied after length [] ->
      Unfinished stakingDone (post copied)) :
    (joinedStakingReader behind buf).ReadsItem state capacity next length
      body := by
  refine readsItem_of_handle record prepare post clean goesOn decoded handles
    overruns stores ?_ cutOff
  intro whole copied facts
  obtain ⟨reached, tx, later, again, same, facts⟩ | ⟨none, left, gaveUp⟩ :=
    moves whole copied facts
  · obtain ⟨fewer, reads⟩ := field_goes here same
    have shorter := length_drop_body_lt decoded
    have remaining := clean.holds.commandLength_eq
    have fewer : enters later.field ≤ enters state.stakeCurrentField := fewer
    refine Or.inl ⟨reached, again, ?_⟩
    rw [drawn, same, Option.elim_some]
    exact facts.expectsJoined reads (by omega)
  · refine Or.inr ⟨?_, Or.inr ⟨-1, left, gaveUp, by decide⟩⟩
    rw [drawn, none, Option.elim_none]

/-- A handler that only advances to the next state. -/
theorem readsItem_of_following {capacity : Option Nat}
    {next : List UInt8 -> Layout RlpStakingField (Option TxContent)}
    {goes : List UInt8 -> Option StakingPlace} {out : Option Store}
    {after : TxContent}
    (here : (course behind).node state.place = .field capacity goes)
    (drawn : ∀ bytes, next bytes =
      (goes bytes).elim .refuse ((course behind).unfold items))
    (enough : state.commandLength + enters state.stakeCurrentField < items + 1)
    (record : TxContext -> TxContext) (prepare : TxContent -> TxContent)
    (clean : Clean buf state stream) (goesOn : stakingDone state = false)
    (decoded : readHeader stream = .header isList length body)
    (handles : ∀ ready, Ready buf state ready length body ->
      @handleStakingField (.joined behind) buf ready =
        continueWith (takeField buf out record (ready.prepared prepare)))
    (overruns : exceeds capacity (body.take length).length = true ->
      Overruns out (body.take length) (prepare state.content))
    (stores : exceeds capacity (body.take length).length = false ->
      Stores out length (body.take length) (prepare state.content) after)
    (moves : length ≤ body.length -> ∀ copied,
      Copied buf state copied after length (body.drop length) ->
      ∃ tx later, goes (body.take length) = some later ∧
        Handled buf { record copied with processingField := false } tx
          later.field later.keyIndex later.content (body.drop length)) :
    (joinedStakingReader behind buf).ReadsItem state capacity next length
      body := by
  refine readsItem_of_place here drawn enough record prepare .again clean
    goesOn decoded handles overruns stores ?_ ?_
  · intro whole copied facts
    obtain ⟨tx, later, same, facts⟩ := moves whole copied facts
    exact Or.inl ⟨_, tx, later, rfl, same, facts⟩
  · intro copied facts
    refine unfinished_again facts rfl ?_
    rw [facts.stakeCurrentField]
    simpa [stakingDone] using goesOn

end Steps

section Sound

variable {behind : Nat} {buf : Region 1024} {state : TxContext}
  {stream : List UInt8} {isList : Bool} {length : Nat} {body : List UInt8}

/-- The states of the machine that skip a header. -/
private theorem joined_enter {tag : RlpStakingField}
    {next : Nat -> Layout RlpStakingField (Option TxContent)}
    (entered : (joinedStakingReader behind buf).At state (.enter tag next)
      stream)
    (decoded : readHeader stream = .header isList length body) :
    ∃ reached, (joinedStakingReader behind buf).body.Round state reached ∧
      (joinedStakingReader behind buf).At reached (next length) body := by
  obtain ⟨clean, goesOn, ⟨items, drawn, enough⟩, _⟩ := entered
  obtain ⟨fewer, goes, rfl, -, here, continues⟩ :=
    Course.unfold_eq_enter drawn.symm
  let memory : Memory := .joined behind
  refine enters_of_place here continues enough clean goesOn decoded
    fun ready atField => ?_
  have staking := atField.same.stakeCurrentField
  have index := atField.same.currentBlsKeyIndex
  have content := atField.same.content
  have announced := atField.currentFieldLength
  have shape := here
  cases field : state.stakeCurrentField <;>
    simp only [course, node, TxContext.place, field, reduceCtorEq] at shape
  case delegatoraddr => split at shape <;> cases shape
  all_goals
    obtain rfl := Node.enter.inj shape
    rw [field] at staking
  case content =>
    exact ⟨processContent ready, _, by simp [handleStakingField, staking],
      atField.entered ⟨rfl, rfl, rfl⟩ rfl, rfl,
      by simp [processContent, advanceBoth, staking, RlpStakingField.next,
        StakingPlace.go],
      index, content⟩
  case stakemessage =>
    refine ⟨processStakingMessage ready, _,
      by simp [handleStakingField, staking],
      atField.entered ⟨rfl, rfl, rfl⟩ rfl, rfl, ?_, index, content⟩
    simp only [processStakingMessage, content]
    rfl
  case description =>
    exact ⟨{ ready.goTo .name with processingField := false }, _,
      by simp only [handleStakingField, staking],
      atField.entered ⟨rfl, rfl, rfl⟩ rfl, rfl, rfl, index, content⟩
  case commissionrates =>
    exact ⟨{ ready.goTo .rate with processingField := false }, _,
      by simp only [handleStakingField, staking],
      atField.entered ⟨rfl, rfl, rfl⟩ rfl, rfl, rfl, index, content⟩
  case rate =>
    refine ⟨if state.content.directive = DirectiveEditValidator ∧ length = 0
        then (processDecimal ready).goTo .minselfdelegation
        else processDecimal ready, ready.txCurrentField, ?_, ?_⟩
    · simp only [handleStakingField, staking, processDecimal, content,
        announced]
    · dsimp only
      split
      · exact ⟨atField.entered ⟨rfl, rfl, rfl⟩ rfl, rfl, rfl, index, content⟩
      · exact ⟨atField.entered ⟨rfl, rfl, rfl⟩ rfl, rfl,
          congrArg RlpStakingField.next staking, index, content⟩
  case maxrate | maxchangerate =>
    exact ⟨processDecimal ready, _, by simp only [handleStakingField, staking],
      atField.entered ⟨rfl, rfl, rfl⟩ rfl, rfl,
      congrArg RlpStakingField.next staking, index, content⟩
  case slotpubkeys =>
    exact ⟨{ ready.goTo .blspubkey with
        content := { ready.content with
          blsPubKeySize := ready.currentFieldLength / (MAX_BLS_ADDRESS + 1) }
        currentBlsKeyIndex := 0
        processingField := false }, _,
      by simp only [handleStakingField, staking],
      atField.entered ⟨rfl, rfl, rfl⟩ rfl, rfl, rfl, rfl,
      by rw [content, announced]; rfl⟩
  case blssigs =>
    exact ⟨{ ready.goTo .blssignature with
        content := { ready.content with
          blsPubKeySize := ready.currentFieldLength / (MAX_SIG_ADDRESS + 2) }
        currentBlsKeyIndex := 0
        processingField := false }, _,
      by simp only [handleStakingField, staking],
      atField.entered ⟨rfl, rfl, rfl⟩ rfl, rfl, rfl, rfl,
      by rw [content, announced]; rfl⟩

/-- The states of the machine that take one field. -/
private theorem joined_field {tag : RlpStakingField} {capacity : Option Nat}
    {next : List UInt8 -> Layout RlpStakingField (Option TxContent)}
    (entered : (joinedStakingReader behind buf).At state
      (.field tag capacity next) stream)
    (decoded : readHeader stream = .header isList length body) :
    (joinedStakingReader behind buf).ReadsItem state capacity next length
      body := by
  obtain ⟨clean, goesOn, ⟨items, drawn, enough⟩, _⟩ := entered
  obtain ⟨fewer, goes, rfl, -, here, continues⟩ :=
    Course.unfold_eq_field drawn.symm
  have empty : length = 0 -> body.take length = [] := by
    rintro rfl
    rfl
  have full : length ≤ body.length -> (body.take length).length = length :=
    List.length_take_of_le
  let memory : Memory := .joined behind
  have shape := here
  cases field : state.stakeCurrentField <;>
    simp only [course, node, TxContext.place, field, reduceCtorEq] at shape
  case directive =>
    obtain ⟨rfl, rfl⟩ := Node.field.inj shape
    apply readsItem_of_following here continues enough advanceStaking id clean
      goesOn decoded
    case handles =>
      intro ready atField
      simp only [handleStakingField, atField.same.stakeCurrentField, field]
      exact congrArg _ (processDirective_eq atField)
    case overruns => exact overruns_joined
    case stores => exact stores_joined (by decide) empty
    case moves =>
      intro whole copied facts
      have handled := facts.advanceStaking
      rw [field] at handled
      exact ⟨_, _, rfl, handled⟩
  case delegatoraddr =>
    split at shape
    · cases shape
    next notCollect =>
    obtain ⟨rfl, rfl⟩ := Node.field.inj shape
    apply readsItem_of_place here continues enough advanceBoth id _ clean
      goesOn decoded
    case handles =>
      intro ready atField
      exact handle_delegator (atField.same.stakeCurrentField.trans field)
        atField.currentFieldPos
    case overruns => exact overruns_joined
    case stores => exact stores_joined (by decide) empty
    case moves =>
      intro whole copied facts
      have handled := facts.advanceBoth
      rw [field] at handled
      refine Or.inl ⟨_, _, _, congrArg _ (if_neg ?_), rfl, handled⟩
      rw [handled.content, TxContent.directive_poke (Or.inl (by decide))]
      exact notCollect
    case cutOff =>
      intro copied facts
      have keeps : copied.content.directive = state.content.directive := by
        rw [facts.content, TxContent.directive_poke (Or.inl (by decide))]
        rfl
      rw [if_neg (by rwa [keeps])]
      exact unfinished_again facts rfl (by simp [facts.stakeCurrentField, field])
  case validatoraddr =>
    obtain ⟨rfl, rfl⟩ := Node.field.inj shape
    apply readsItem_of_place here continues enough advanceBoth id
      (fun handled => .again
        (if Staking.Delegates handled.content.directive then
          handled.goTo .amount else handled.goTo .description))
      clean goesOn decoded
    case handles =>
      intro ready atField
      simp only [handleStakingField, atField.same.stakeCurrentField, field]
      rw [processValidatorAddress]
      erw [processBytes_eq Slot.validatorAddress atField]
      exact continueWith_do _ _
    case overruns => exact overruns_joined
    case stores => exact stores_joined (by decide) empty
    case moves =>
      intro whole copied facts
      have handled := facts.advanceBoth
      refine Or.inl ⟨_, state.txCurrentField.next, _, rfl, rfl, ?_⟩
      rw [handled.content]
      dsimp only [id]
      split_ifs
      · exact handled.goTo .amount
      · exact handled.goTo .description
    case cutOff =>
      intro copied facts
      refine unfinished_again facts ?_ ?_ <;> split <;> simp [TxContext.goTo]
  case name =>
    obtain ⟨rfl, rfl⟩ := Node.field.inj shape
    apply readsItem_of_following here continues enough advanceBoth
      Staking.clearName clean goesOn decoded
    case handles =>
      intro ready atField
      rw [handle_name (atField.same.stakeCurrentField.trans field)]
      exact congrArg _ (processBytes_eq Slot.name
        (atField.prepared Staking.clearName))
    case overruns => exact overruns_joined
    case stores => exact stores_joined (by decide) empty
    case moves =>
      intro whole copied facts
      have handled := facts.advanceBoth
      rw [field] at handled
      exact ⟨_, _, rfl, handled⟩
  case identity | website | securitycontact =>
    obtain ⟨rfl, rfl⟩ := Node.field.inj shape
    apply readsItem_of_following here continues enough advanceBoth id clean
      goesOn decoded
    case handles =>
      intro ready atField
      simp only [handleStakingField, atField.same.stakeCurrentField, field]
      rfl
    case overruns => exact not_overruns_skip
    case stores => exact fun _ => stores_skip _
    case moves =>
      intro whole copied facts
      have handled := facts.advanceBoth
      rw [field] at handled
      exact ⟨_, _, rfl, handled⟩
  case details =>
    obtain ⟨rfl, rfl⟩ := Node.field.inj shape
    apply readsItem_of_place here continues enough advanceBoth id
      (fun handled => .again
        (if handled.content.directive = DirectiveEditValidator then
          handled.goTo .rate else handled))
      clean goesOn decoded
    case handles =>
      intro ready atField
      simp only [handleStakingField, atField.same.stakeCurrentField, field]
      exact continueWith_do _ _
    case overruns => exact not_overruns_skip
    case stores => exact fun _ => stores_skip _
    case moves =>
      intro whole copied facts
      have handled := facts.advanceBoth
      rw [field] at handled
      refine Or.inl ⟨_, state.txCurrentField.next, _, rfl, rfl, ?_⟩
      rw [handled.content]
      dsimp only [id]
      split_ifs
      · exact handled.goTo .rate
      · exact handled
    case cutOff =>
      intro copied facts
      refine unfinished_again facts ?_ ?_ <;> split <;>
        simp [TxContext.goTo, facts.stakeCurrentField, field]
  case rateValue =>
    obtain ⟨rfl, rfl⟩ := Node.field.inj shape
    apply readsItem_of_place here continues enough (recordInt256 Slot.rate) id
      (fun handled => .again
        (if handled.content.directive = DirectiveEditValidator then
          handled.goTo .minselfdelegation else handled))
      clean goesOn decoded
    case handles =>
      intro ready atField
      simp only [handleStakingField, atField.same.stakeCurrentField, field]
      rw [processRate]
      erw [processInt256_eq Slot.rate atField]
      exact continueWith_do _ _
    case overruns => exact overruns_joined
    case stores => exact stores_joined (by decide) empty
    case moves =>
      intro whole copied facts
      have handled := facts.recordPoked Slot.rate (full whole)
      rw [field] at handled
      refine Or.inl ⟨_, state.txCurrentField.next, _, rfl, rfl, ?_⟩
      rw [handled.content]
      dsimp only [id]
      split_ifs
      · exact handled.goTo .minselfdelegation
      · exact handled
    case cutOff =>
      intro copied facts
      refine unfinished_again facts ?_ ?_ <;> split <;>
        simp [TxContext.goTo, facts.stakeCurrentField, field]
  case maxrateValue =>
    obtain ⟨rfl, rfl⟩ := Node.field.inj shape
    apply readsItem_of_following here continues enough
      (recordInt256 Slot.maxRate) id clean goesOn decoded
    case handles =>
      intro ready atField
      simp only [handleStakingField, atField.same.stakeCurrentField, field]
      exact congrArg _ (processInt256_eq Slot.maxRate atField)
    case overruns => exact overruns_joined
    case stores => exact stores_joined (by decide) empty
    case moves =>
      intro whole copied facts
      have handled := facts.recordPoked Slot.maxRate (full whole)
      rw [field] at handled
      exact ⟨_, _, rfl, handled⟩
  case maxchangerateValue =>
    obtain ⟨rfl, rfl⟩ := Node.field.inj shape
    apply readsItem_of_following here continues enough
      (recordInt256 Slot.maxChangeRate) id clean goesOn decoded
    case handles =>
      intro ready atField
      simp only [handleStakingField, atField.same.stakeCurrentField, field]
      exact congrArg _ (processInt256_eq Slot.maxChangeRate atField)
    case overruns => exact overruns_joined
    case stores => exact stores_joined (by decide) empty
    case moves =>
      intro whole copied facts
      have handled := facts.recordPoked Slot.maxChangeRate (full whole)
      rw [field] at handled
      exact ⟨_, _, rfl, handled⟩
  case minselfdelegation =>
    obtain ⟨rfl, rfl⟩ := Node.field.inj shape
    apply readsItem_of_following here continues enough
      (recordInt256 Slot.minSelfDelegation) id clean goesOn decoded
    case handles =>
      intro ready atField
      simp only [handleStakingField, atField.same.stakeCurrentField, field]
      exact congrArg _ (processInt256_eq Slot.minSelfDelegation atField)
    case overruns => exact overruns_joined
    case stores => exact stores_joined (by decide) empty
    case moves =>
      intro whole copied facts
      have handled := facts.recordPoked Slot.minSelfDelegation (full whole)
      rw [field] at handled
      exact ⟨_, _, rfl, handled⟩
  case maxtotaldelegation =>
    obtain ⟨rfl, rfl⟩ := Node.field.inj shape
    apply readsItem_of_place here continues enough
      (recordInt256 Slot.maxTotalDelegation) id
      (fun handled =>
        if handled.content.directive = DirectiveCreateValidator then
          .again (handled.goTo .slotpubkeys)
        else if handled.content.directive = DirectiveEditValidator then
          .again (handled.goTo .slotkeytoremove)
        else .exit (-1, handled))
      clean goesOn decoded
    case handles =>
      intro ready atField
      simp only [handleStakingField, atField.same.stakeCurrentField, field]
      exact congrArg _ (processInt256_eq Slot.maxTotalDelegation atField)
    case overruns => exact overruns_joined
    case stores => exact stores_joined (by decide) empty
    case moves =>
      intro whole copied facts
      have handled := facts.recordPoked Slot.maxTotalDelegation (full whole)
      rw [handled.content]
      dsimp only [id]
      split_ifs
      · exact Or.inl ⟨_, _, _, rfl, rfl, handled.goTo .slotpubkeys⟩
      · exact Or.inl ⟨_, _, _, rfl, rfl, handled.goTo .slotkeytoremove⟩
      · exact Or.inr ⟨rfl, _, rfl⟩
    case cutOff =>
      intro copied facts
      split_ifs
      · exact unfinished_again facts rfl (by simp [TxContext.goTo])
      · exact unfinished_again facts rfl (by simp [TxContext.goTo])
      · exact Or.inr ⟨-1, copied, rfl, by decide⟩
  case slotkeytoremove =>
    obtain ⟨rfl, rfl⟩ := Node.field.inj shape
    apply readsItem_of_place here continues enough advanceStaking captionRemove
      _ clean goesOn decoded
    case handles =>
      intro ready atField
      exact handle_slotkeytoremove (atField.same.stakeCurrentField.trans field)
        atField.currentFieldPos
    case overruns => exact overruns_joinedBlsPubKey
    case stores => exact stores_joinedBlsPubKey empty
    case moves =>
      intro whole copied facts
      have handled := facts.advanceStaking
      rw [field] at handled
      exact Or.inl ⟨_, _, _, rfl, rfl,
        handled.setContent (Staking.showKeyAt 7)⟩
    case cutOff =>
      intro copied facts
      exact unfinished_again facts rfl
        (by simp [facts.stakeCurrentField, field])
  case slotkeytoadd =>
    obtain ⟨rfl, rfl⟩ := Node.field.inj shape
    apply readsItem_of_place here continues enough advanceStaking captionAdd
      (fun handled =>
        if handled.content.directive = DirectiveEditValidator then
          .again ({ handled with
            content := Staking.showKeyAt 25 handled.content }.goTo
              .slotkeytoaddsignature)
        else .exit (-1, { handled with
          content := Staking.showKeyAt 25 handled.content }))
      clean goesOn decoded
    case handles =>
      intro ready atField
      exact handle_slotkeytoadd (atField.same.stakeCurrentField.trans field)
        atField.currentFieldPos
    case overruns => exact overruns_joinedBlsPubKey
    case stores => exact stores_joinedBlsPubKey empty
    case moves =>
      intro whole copied facts
      have handled := facts.advanceStaking
      by_cases edits : ((captionAdd state.content).poke 316
          (body.take length)).directive = DirectiveEditValidator
      · refine Or.inl ⟨_, _, _, if_pos ?_, if_pos edits,
          (handled.setContent (Staking.showKeyAt 25)).goTo
            .slotkeytoaddsignature⟩
        rwa [handled.content]
      · refine Or.inr ⟨if_neg edits, _, if_neg ?_⟩
        rwa [handled.content]
    case cutOff =>
      intro copied facts
      split
      · exact unfinished_again facts rfl (by simp [TxContext.goTo])
      · exact Or.inr ⟨-1, _, rfl, by decide⟩
  case slotkeytoaddsignature =>
    obtain ⟨rfl, rfl⟩ := Node.field.inj shape
    apply readsItem_of_place here continues enough advanceStaking id
      (fun handled => .again (handled.goTo .editactive)) clean goesOn decoded
    case handles =>
      intro ready atField
      simp only [handleStakingField, atField.same.stakeCurrentField, field]
      exact continueWith_do _ _
    case overruns => exact not_overruns_skip
    case stores => exact fun _ => stores_skip _
    case moves =>
      intro whole copied facts
      exact Or.inl ⟨_, _, _, rfl, rfl, facts.advanceStaking.goTo .editactive⟩
    case cutOff =>
      intro copied facts
      exact unfinished_again facts rfl (by simp [TxContext.goTo])
  case blspubkey =>
    obtain ⟨rfl, rfl⟩ := Node.field.inj shape
    apply readsItem_of_place here continues enough advanceStaking id _ clean
      goesOn decoded
    case handles =>
      intro ready atField
      exact handle_blspubkey (atField.same.stakeCurrentField.trans field)
        atField.currentFieldPos
    case overruns => exact overruns_joinedBlsPubKey
    case stores => exact stores_joinedBlsPubKey empty
    case moves =>
      intro whole copied facts
      exact Or.inl ⟨_, _, _, rfl, rfl, facts.advanceStaking.keyRecorded⟩
    case cutOff =>
      intro copied facts
      refine unfinished_again facts rfl ?_
      simp only [keyRecorded]
      split <;> simp
  case blssignature =>
    obtain ⟨rfl, rfl⟩ := Node.field.inj shape
    apply readsItem_of_place here continues enough advanceStaking id _ clean
      goesOn decoded
    case handles =>
      intro ready atField
      exact handle_blssignature (atField.same.stakeCurrentField.trans field)
    case overruns => exact not_overruns_skip
    case stores => exact fun _ => stores_skip _
    case moves =>
      intro whole copied facts
      exact Or.inl ⟨_, _, _, rfl, rfl, facts.advanceStaking.recordBlsSignature⟩
    case cutOff =>
      intro copied facts
      refine unfinished_again facts rfl ?_
      simp only [recordBlsSignature]
      split <;> simp

/-- The machine ends a round at its end. -/
private theorem concluded_again {left : TxContext} {content : TxContent}
    (atEnd : left.stakeCurrentField = .done) (same : left.content = content) :
    Finished stakingDone (Concludes · (some content)) (.again left) :=
  Or.inl ⟨left, rfl, by simp [stakingDone, atEnd], rfl, same⟩

/-- After the amount the directive decides whether the message is taken. -/
private theorem concluded_amount {left : TxContext} {content : TxContent}
    (same : left.content = content) :
    Finished stakingDone
      (Concludes · (if Staking.EndsWithAmount content.directive then
        some content else none))
      (if Staking.EndsWithAmount left.content.directive then
        .again (left.goTo .done) else .exit (-1, left)) := by
  subst same
  by_cases ends : Staking.EndsWithAmount left.content.directive
  · rw [if_pos ends, if_pos ends]
    exact concluded_again rfl rfl
  · rw [if_neg ends, if_neg ends]
    exact Or.inr ⟨_, rfl, show (-1 : Int) ≠ 0 by decide⟩

/-- The states of the machine that take the last field. -/
private theorem joined_final {tag : RlpStakingField} {capacity : Option Nat}
    {value : Nat -> List UInt8 -> Option TxContent}
    (entered : (joinedStakingReader behind buf).At state
      (.final tag capacity value) stream)
    (decoded : readHeader stream = .header isList length body) :
    (exceeds capacity (body.take length).length = true ->
      (joinedStakingReader behind buf).body state = .error .fieldOverrun) ∧
    (exceeds capacity (body.take length).length = false ->
      (joinedStakingReader behind buf).Ends state fun result =>
        (joinedStakingReader behind buf).Accepts result
          (value length (body.take length))) := by
  obtain ⟨clean, goesOn, ⟨items, drawn, _⟩, _⟩ := entered
  obtain ⟨-, here⟩ := Course.unfold_eq_final drawn.symm
  have empty : length = 0 -> body.take length = [] := by
    rintro rfl
    rfl
  let memory : Memory := .joined behind
  cases field : state.stakeCurrentField <;>
    simp only [course, node, TxContext.place, field, reduceCtorEq] at here
  case delegatoraddr =>
    split at here
    next collects =>
      obtain ⟨rfl, rfl⟩ := Node.final.inj here
      have handles : ∀ ready, Ready buf state ready length body ->
          handleStakingField buf ready = _ := fun ready atField =>
        handle_delegator (atField.same.stakeCurrentField.trans field)
          atField.currentFieldPos
      refine ⟨fun tooLong => final_overrun_of_handle _ _ _ clean goesOn decoded
        handles (overruns_joined tooLong) tooLong,
        fun fits => final_of_handle _ _ _ clean goesOn decoded handles
          (stores_joined (by decide) empty fits)
          (fun enough copied facts => ?_) (fun cutOff copied facts => ?_)⟩
      all_goals
        have keeps : copied.content.directive = DirectiveCollectRewards := by
          rw [facts.content, TxContent.directive_poke (Or.inl (by decide))]
          exact collects
        exact Or.inl ⟨_, congrArg Flow.again (if_pos keeps),
          by simp [stakingDone, TxContext.goTo], rfl, facts.content⟩
    next => cases here
  case amount =>
    obtain ⟨rfl, rfl⟩ := Node.final.inj here
    have handles : ∀ ready, Ready buf state ready length body ->
        handleStakingField buf ready = _ := fun ready atField =>
      handle_amount (atField.same.stakeCurrentField.trans field)
        atField.currentFieldPos
    refine ⟨fun tooLong => final_overrun_of_handle _ _ _ clean goesOn decoded
      handles (overruns_joined tooLong) tooLong,
      fun fits => final_of_handle _ _ _ clean goesOn decoded handles
        (stores_joined (by decide) empty fits)
        (fun enough copied facts => ?_) (fun cutOff copied facts => ?_)⟩
    · have full := List.length_take_of_le enough
      refine concluded_amount ?_
      show _ = Slot.value.pokeFinalInt _ _ _
      rw [Slot.pokeFinalInt, if_neg (by omega)]
      exact (facts.recordPoked Slot.value full).content
    · refine concluded_amount ?_
      show _ = Slot.value.pokeFinalInt _ _ _
      rw [Slot.pokeFinalInt, if_pos (by simp; omega)]
      exact facts.content
  case editactive =>
    obtain ⟨rfl, rfl⟩ := Node.final.inj here
    have handles : ∀ ready, Ready buf state ready length body ->
        handleStakingField buf ready = _ := fun ready atField =>
      handle_editactive (atField.same.stakeCurrentField.trans field)
        atField.currentFieldPos
    refine ⟨fun tooLong => final_overrun_of_handle _ _ _ clean goesOn decoded
      handles (overruns_joinedShard Slot.fromShard tooLong) tooLong,
      fun fits => final_of_handle _ _ _ clean goesOn decoded handles
        (stores_joinedShard Slot.fromShard (by decide) fits)
        (fun enough copied facts => ?_) (fun cutOff copied facts => ?_)⟩
    all_goals
      exact concluded_again rfl (congrArg Staking.showStatus facts.content)

/-- The main loop of `processStaking` follows the drawn-up layout. -/
theorem joinedStakingReader_sound (behind : Nat) (buf : Region 1024) :
    (joinedStakingReader behind buf).Sound where
  not_refuse entered := entered.2.2.2 rfl
  undecoded entered none := undecoded_ends entered.1 entered.2.1 none
  enter := joined_enter
  field := joined_field
  drain entered _ := by
    obtain ⟨_, _, ⟨items, drawn, _⟩, _⟩ := entered
    exact absurd drawn.symm Course.unfold_ne_drain
  final_overrun entered decoded := (joined_final entered decoded).1
  final entered decoded := (joined_final entered decoded).2

end Sound

/-- The meaning of a byte string as a staking operation in one piece of
memory: refused, or read to its end and then taken with a content or given
up. -/
def joinedStakingVerdict (behind : Nat) (bytes : List UInt8) :
    Verdict (Option TxContent) :=
  (JoinedStaking.message behind).verdict bytes

section Start

variable {behind : Nat} {buf : Region 1024} {bytes : List UInt8}

theorem joinedStakingReader_at_start (received : Received buf bytes) :
    (joinedStakingReader behind buf).At (stakingStart bytes.length)
      (JoinedStaking.message behind) bytes := by
  refine ⟨clean_stakingStart received, by simp [stakingDone, stakingStart],
    ⟨1034, rfl, ?_⟩, Course.unfold_ne_refuse (node_ne_refuse trivial)⟩
  have := received.fits
  simp only [stakingStart, enters]
  omega

/-- `processStaking` on a fresh context ends with the verdict of this
layout. -/
theorem processStakingIn_agrees (received : Received buf bytes) :
    (joinedStakingReader behind buf).Agrees
      (joinedStakingVerdict behind bytes)
      (processStakingIn behind buf (stakingStart bytes.length)) := by
  obtain ⟨outcome, ends, agrees⟩ := (joinedStakingReader_sound behind buf).run
    (joinedStakingReader_at_start received)
    (JoinedStaking.message_entersAtMost behind)
  have ends : (@processStakingRound (.joined behind) buf).run
      ((stakingStart bytes.length).commandLength + 64)
      (stakingStart bytes.length) = some outcome :=
    Body.run_mono ends (by simp only [stakingStart]; omega)
  show (joinedStakingReader behind buf).Agrees _
    (runParser (@processStakingRound (.joined behind) buf) _)
  rw [runParser, ends]
  exact agrees

/-- It returns 0 on what the layout takes with a content. -/
theorem processStakingIn_accepts_iff (received : Received buf bytes)
    (content : TxContent) :
    (∃ left, processStakingIn behind buf (stakingStart bytes.length) =
        .ok (0, left) ∧ left.content = content) ↔
      ∃ complete, joinedStakingVerdict behind bytes =
        .accepted (some content) complete := by
  have agrees : (joinedStakingReader behind buf).Agrees
      (joinedStakingVerdict behind bytes) _ := processStakingIn_agrees received
  cases verdict : joinedStakingVerdict behind bytes with
  | refused =>
      rw [verdict] at agrees
      obtain ⟨⟨code, left⟩, same, rejects⟩ := agrees
      rw [same]
      refine iff_of_false ?_ (by simp)
      rintro ⟨other, equal, -⟩
      cases equal
      exact rejects rfl
  | overrun =>
      rw [verdict] at agrees
      have left : processStakingIn behind buf _ = .error .fieldOverrun := agrees
      rw [left]
      exact iff_of_false (by simp) (by simp)
  | accepted value complete =>
      rw [verdict] at agrees
      obtain ⟨⟨code, left⟩, same, concludes⟩ := agrees
      rw [same]
      cases value with
      | none =>
          refine iff_of_false ?_ (by simp)
          rintro ⟨other, equal, -⟩
          cases equal
          exact concludes rfl
      | some value =>
          obtain ⟨zero, content⟩ := concludes
          cases zero
          cases content
          simp

/-- It leaves the memory of the context where the layout does. -/
theorem processStakingIn_leaves_iff (received : Received buf bytes) :
    processStakingIn behind buf (stakingStart bytes.length) =
        .error .fieldOverrun ↔
      joinedStakingVerdict behind bytes = .overrun :=
  leaves_iff_of_agrees (processStakingIn_agrees received)

end Start

end LedgerOne
