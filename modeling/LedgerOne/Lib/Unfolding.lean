import LedgerOne.Lib.Visits

/-!
# Courses of readers

A reader may let each item decide anew what it expects, so that no layout of
bounded depth describes it.  A `Course` leads such a reader from place to
place: `Node` is its local shape, and `unfold` draws up its layout for a number
of items; a stream that is shorter than this number does not meet the end of
the drawing.  `Path` are the complete readings on a course and `Steps` their
beginnings.
-/

namespace LedgerOne

open Rlp Layout

/-- What a reader does in a place; `π` are the places. -/
inductive Node (π α : Type)
  /-- Give up. -/
  | refuse
  /-- Decode a header and go on inside its payload. -/
  | enter (next : Nat -> π)
  /-- Read one whole item, and go on or give up. -/
  | field (capacity : Option Nat) (next : List UInt8 -> Option π)
  /-- Read the last item, as far as it is there. -/
  | final (capacity : Option Nat) (value : Nat -> List UInt8 -> α)

/-- A course over places `π`, which reads the fields `τ`. -/
structure Course (π τ α : Type) where
  tag : π -> τ
  node : π -> Node π α

namespace Course

variable {π τ α : Type} (course : Course π τ α)

/-- The layout of the course from a place on, for a number of items. -/
def unfold : Nat -> π -> Layout τ α
  | 0, _ => .refuse
  | items + 1, place =>
      match course.node place with
      | .refuse => .refuse
      | .enter next =>
          .enter (course.tag place) fun length => unfold items (next length)
      | .field capacity next =>
          .field (course.tag place) capacity fun bytes =>
            (next bytes).elim .refuse fun after => unfold items after
      | .final capacity value => .final (course.tag place) capacity value

section Unfold

variable {course} {items : Nat} {place : π} {tag : τ}
  {capacity : Option Nat}

theorem unfold_ne_refuse (reads : course.node place ≠ .refuse) :
    course.unfold (items + 1) place ≠ .refuse := by
  unfold unfold
  split
  · next none => exact absurd none reads
  all_goals simp

theorem unfold_eq_enter {next : Nat -> Layout τ α}
    (drawn : course.unfold items place = .enter tag next) :
    ∃ fewer after, items = fewer + 1 ∧ course.tag place = tag ∧
      course.node place = .enter after ∧
      ∀ length, next length = course.unfold fewer (after length) := by
  cases items with
  | zero => cases drawn
  | succ fewer =>
      unfold unfold at drawn
      split at drawn
      · cases drawn
      · next after node =>
        cases drawn
        exact ⟨fewer, after, rfl, rfl, node, fun _ => rfl⟩
      · cases drawn
      · cases drawn

theorem unfold_eq_field {next : List UInt8 -> Layout τ α}
    (drawn : course.unfold items place = .field tag capacity next) :
    ∃ fewer after, items = fewer + 1 ∧ course.tag place = tag ∧
      course.node place = .field capacity after ∧
      ∀ bytes, next bytes =
        (after bytes).elim .refuse (course.unfold fewer) := by
  cases items with
  | zero => cases drawn
  | succ fewer =>
      unfold unfold at drawn
      split at drawn
      · cases drawn
      · cases drawn
      · next after node =>
        cases drawn
        exact ⟨fewer, after, rfl, rfl, node, fun _ => rfl⟩
      · cases drawn

theorem unfold_eq_final {value : Nat -> List UInt8 -> α}
    (drawn : course.unfold items place = .final tag capacity value) :
    course.tag place = tag ∧ course.node place = .final capacity value := by
  cases items with
  | zero => cases drawn
  | succ fewer =>
      unfold unfold at drawn
      split at drawn
      · cases drawn
      · cases drawn
      · cases drawn
      · next node =>
        cases drawn
        exact ⟨rfl, node⟩

theorem unfold_ne_drain :
    course.unfold items place ≠ .drain tag capacity := by
  intro drawn
  cases items with
  | zero => cases drawn
  | succ fewer =>
      unfold unfold at drawn
      split at drawn <;> cases drawn

/-- The first item that is drawn up is the one of the place. -/
theorem tag?_unfold (reads : course.unfold items place ≠ .refuse) :
    (course.unfold items place).tag? = some (course.tag place) := by
  cases items with
  | zero => exact absurd rfl reads
  | succ fewer =>
      unfold unfold at reads ⊢
      split at reads
      · exact absurd rfl reads
      all_goals rfl

end Unfold

/-- A bound on the headers that are still to be entered. -/
structure Bounds (course : Course π τ α) (limit : π -> Nat) : Prop where
  enter {place next} : course.node place = .enter next ->
    ∀ length, limit (next length) < limit place
  field {place capacity next bytes after} :
    course.node place = .field capacity next -> next bytes = some after ->
    limit after ≤ limit place

theorem Bounds.entersAtMost {course : Course π τ α} {limit : π -> Nat}
    (bounds : course.Bounds limit) {items count : Nat} {place : π}
    (enough : limit place ≤ count) :
    (course.unfold items place).EntersAtMost count := by
  induction items generalizing place count with
  | zero => simp [unfold, EntersAtMost]
  | succ items inductionHypothesis =>
      unfold unfold
      split
      · simp [EntersAtMost]
      · next next node =>
        cases count with
        | zero =>
            have := bounds.enter node 0
            omega
        | succ count =>
            intro length
            have := bounds.enter node length
            exact inductionHypothesis (by omega)
      · next capacity next node =>
        have later : ∀ bytes, EntersAtMost count
            ((next bytes).elim .refuse (course.unfold items)) := by
          intro bytes
          cases goesOn : next bytes with
          | none => simp [EntersAtMost]
          | some after =>
              exact inductionHypothesis
                ((bounds.field node goesOn).trans enough)
        simpa only [EntersAtMost] using later
      · simp [EntersAtMost]

theorem endsIn_unfold {course : Course π τ α}
    {ways : τ -> Option Nat -> (Nat -> List UInt8 -> α) -> Prop}
    (ends : ∀ {place capacity value},
      course.node place = .final capacity value ->
      ways (course.tag place) capacity value) (items : Nat) (place : π) :
    (course.unfold items place).EndsIn ways := by
  induction items generalizing place with
  | zero => trivial
  | succ items inductionHypothesis =>
      unfold unfold
      split
      · trivial
      · exact fun _ => inductionHypothesis _
      · next capacity next node =>
        intro bytes
        dsimp only
        cases next bytes with
        | none => trivial
        | some after => exact inductionHypothesis _
      · next node => exact ends node

/-! ## Readings -/

/-- The items that lead the course from a place to a value. -/
inductive Path (course : Course π τ α) : π -> List (Visit τ) -> α -> Prop
  | enter {place next length bytes rest value}
      (node : course.node place = .enter next)
      (later : Path course (next length) rest value) :
      Path course place (⟨course.tag place, length, bytes⟩ :: rest) value
  | field {place capacity next bytes after rest value}
      (node : course.node place = .field capacity next)
      (goesOn : next bytes = some after)
      (later : Path course after rest value) :
      Path course place (.whole (course.tag place) bytes :: rest) value
  | final {place capacity value length bytes}
      (node : course.node place = .final capacity value)
      (within : bytes.length ≤ length) :
      Path course place [⟨course.tag place, length, bytes⟩]
        (value length bytes)

/-- The items that lead the course from one place to another. -/
inductive Steps (course : Course π τ α) : π -> List (Visit τ) -> π -> Prop
  | none {place} : Steps course place [] place
  | enter {place next length bytes rest last}
      (node : course.node place = .enter next)
      (later : Steps course (next length) rest last) :
      Steps course place (⟨course.tag place, length, bytes⟩ :: rest) last
  | field {place capacity next bytes after rest last}
      (node : course.node place = .field capacity next)
      (goesOn : next bytes = some after)
      (later : Steps course after rest last) :
      Steps course place (.whole (course.tag place) bytes :: rest) last

variable {course}

/-- What leads the drawn-up layout to a value leads the course there. -/
theorem path_of_follows {items : Nat} {place : π} {visits : List (Visit τ)}
    {value : α} (follows : (course.unfold items place).Follows visits value) :
    course.Path place visits value := by
  induction items generalizing place visits with
  | zero => exact absurd follows not_follows_refuse
  | succ items inductionHypothesis =>
      unfold unfold at follows
      split at follows
      · exact absurd follows not_follows_refuse
      · next next node =>
        obtain ⟨length, bytes, rest, rfl, later⟩ := follows_enter_iff.mp follows
        exact .enter node (inductionHypothesis later)
      · next capacity next node =>
        obtain ⟨bytes, rest, rfl, -, later⟩ := follows_field_iff.mp follows
        cases goesOn : next bytes with
        | none =>
            rw [goesOn] at later
            exact absurd later not_follows_refuse
        | some after =>
            rw [goesOn] at later
            exact .field node goesOn (inductionHypothesis later)
      · next capacity last node =>
        obtain ⟨length, bytes, rfl, -, within, rfl⟩ :=
          follows_final_iff.mp follows
        exact .final node within

section Inversion

variable {place : π} {visits : List (Visit τ)} {value : α}
  {capacity : Option Nat}

theorem Path.of_enter {next : Nat -> π}
    (path : course.Path place visits value)
    (node : course.node place = .enter next) :
    ∃ length bytes rest, visits = ⟨course.tag place, length, bytes⟩ :: rest ∧
      course.Path (next length) rest value := by
  cases path with
  | enter other later =>
      cases node.symm.trans other
      exact ⟨_, _, _, rfl, later⟩
  | field other => cases node.symm.trans other
  | final other => cases node.symm.trans other

theorem Path.of_field {next : List UInt8 -> Option π}
    (path : course.Path place visits value)
    (node : course.node place = .field capacity next) :
    ∃ bytes after rest, visits = .whole (course.tag place) bytes :: rest ∧
      next bytes = some after ∧ course.Path after rest value := by
  cases path with
  | enter other => cases node.symm.trans other
  | field other goesOn later =>
      cases node.symm.trans other
      exact ⟨_, _, _, rfl, goesOn, later⟩
  | final other => cases node.symm.trans other

theorem Path.of_final {last : Nat -> List UInt8 -> α}
    (path : course.Path place visits value)
    (node : course.node place = .final capacity last) :
    ∃ length bytes, visits = [⟨course.tag place, length, bytes⟩] ∧
      bytes.length ≤ length ∧ value = last length bytes := by
  cases path with
  | enter other => cases node.symm.trans other
  | field other => cases node.symm.trans other
  | final other within =>
      cases node.symm.trans other
      exact ⟨_, _, rfl, within, rfl⟩

end Inversion

/-- A reading is cut in two where it comes to the first of some fields. -/
def ComesTo (reached : τ -> Prop) (place : π) (visits : List (Visit τ))
    (value : α) : Prop :=
  ∃ before after rest, visits = before ++ rest ∧
    course.Steps place before after ∧ reached (course.tag after) ∧
    (∀ visit ∈ before, ¬reached visit.tag) ∧ course.Path after rest value

/-- Either the first item is it or the search goes on behind it. -/
private theorem comesTo_cons {reached : τ -> Prop} {place : π}
    {first : Visit τ} {rest : List (Visit τ)} {value : α}
    (same : first.tag = course.tag place)
    (path : course.Path place (first :: rest) value)
    (further : (∃ visit ∈ rest, reached visit.tag) ->
      ∃ next, (∀ {visits last}, course.Steps next visits last ->
          course.Steps place (first :: visits) last) ∧
        course.ComesTo reached next rest value)
    (visited : ∃ visit ∈ first :: rest, reached visit.tag) :
    course.ComesTo reached place (first :: rest) value := by
  by_cases here : reached (course.tag place)
  · exact ⟨[], place, _, rfl, .none, here, by simp, path⟩
  have tail : ∃ visit ∈ rest, reached visit.tag := by
    obtain ⟨visit, member, other⟩ := visited
    obtain rfl | member := List.mem_cons.mp member
    · exact absurd (same ▸ other) here
    · exact ⟨visit, member, other⟩
  obtain ⟨next, step, before, after, last, rfl, steps, atLast, avoided, path⟩ :=
    further tail
  exact ⟨first :: before, after, last, rfl, step steps, atLast,
    List.forall_mem_cons.mpr ⟨by rwa [same], avoided⟩, path⟩

/-- A reading that visits some field comes to the first of them. -/
theorem Path.comesTo {reached : τ -> Prop} {place : π}
    {visits : List (Visit τ)} {value : α}
    (path : course.Path place visits value)
    (visited : ∃ visit ∈ visits, reached visit.tag) :
    course.ComesTo reached place visits value := by
  induction path with
  | enter node later inductionHypothesis =>
      exact comesTo_cons rfl (.enter node later)
        (fun tail => ⟨_, .enter node, inductionHypothesis tail⟩) visited
  | field node goesOn later inductionHypothesis =>
      exact comesTo_cons rfl (.field node goesOn later)
        (fun tail => ⟨_, .field node goesOn, inductionHypothesis tail⟩) visited
  | final node within =>
      exact comesTo_cons rfl (.final node within) (by simp) visited

/-- What every step beside some fields keeps, several such steps keep. -/
theorem Steps.keeps {avoided : τ -> Prop}
    {holds : List (Visit τ) -> π -> Prop}
    (enter : ∀ {before place next length bytes},
      ¬avoided (course.tag place) -> course.node place = .enter next ->
      holds before place ->
      holds (before ++ [⟨course.tag place, length, bytes⟩]) (next length))
    (field : ∀ {before place capacity next bytes after},
      ¬avoided (course.tag place) -> course.node place = .field capacity next ->
      next bytes = some after -> holds before place ->
      holds (before ++ [.whole (course.tag place) bytes]) after)
    {place last : π} {visits before : List (Visit τ)}
    (steps : course.Steps place visits last)
    (beside : ∀ visit ∈ visits, ¬avoided visit.tag)
    (start : holds before place) :
    holds (before ++ visits) last := by
  induction steps generalizing before with
  | none => simpa using start
  | enter node later inductionHypothesis =>
      have first := beside _ (List.mem_cons_self ..)
      have rest := fun visit member =>
        beside visit (List.mem_cons_of_mem _ member)
      simpa using inductionHypothesis rest (enter first node start)
  | field node goesOn later inductionHypothesis =>
      have first := beside _ (List.mem_cons_self ..)
      have rest := fun visit member =>
        beside visit (List.mem_cons_of_mem _ member)
      simpa using inductionHypothesis rest (field first node goesOn start)

/-- A reading stays within fields that are not left. -/
theorem Path.within {inside : τ -> Prop}
    (enter : ∀ {place next}, inside (course.tag place) ->
      course.node place = .enter next ->
      ∀ length, inside (course.tag (next length)))
    (field : ∀ {place capacity next bytes after}, inside (course.tag place) ->
      course.node place = .field capacity next -> next bytes = some after ->
      inside (course.tag after))
    {place : π} {visits : List (Visit τ)} {value : α}
    (path : course.Path place visits value)
    (start : inside (course.tag place)) :
    ∀ visit ∈ visits, inside visit.tag := by
  induction path with
  | enter node later inductionHypothesis =>
      exact List.forall_mem_cons.mpr
        ⟨start, inductionHypothesis (enter start node _)⟩
  | field node goesOn later inductionHypothesis =>
      exact List.forall_mem_cons.mpr
        ⟨start, inductionHypothesis (field start node goesOn)⟩
  | final node within => simpa using start

end Course

end LedgerOne
