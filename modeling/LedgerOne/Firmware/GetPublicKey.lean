import LedgerOne.Firmware.Ui

/-!
# Showing the address (`getPublicKey.c`)

The context of this command covers the start of the buffer in which the signing
commands collect a message.
-/

namespace LedgerOne

open GetPublicKey

def P2_DISPLAY_ADDRESS : UInt8 := 0x00
def P2_SILENT_MODE : UInt8 := 0x01

/-- `os_memset` on the whole context. -/
def Ctx.clearForPublicKey (ctx : Ctx build) : Ctx build :=
  { ctx with
    display := { ctx.display with displayIndex := 0 }
    buf := ctx.buf.splice 0 (List.replicate size 0) }

/-- `getOneAddress`: put the address at the start of `G_io_apdu_buffer`. -/
def getOneAddress (env : Env) (device : Device build) : Device build :=
  match bech32GetAddress env.ethAddress.toList with
  | none => device
  | some text => { device with io := device.io.splice 0 (text ++ [0]) }

/-- `getPublicKey`: respond with the address. -/
def getPublicKey (env : Env) (device : Device build) : Outcome build :=
  (getOneAddress env device).respond SW_OK MAX_ONE_ADDRESS

section NanoS

/-- Move the window of the comparison screen. -/
def moveWindow (index : UInt8) (ctx : Ctx .nanoS) : Ctx .nanoS :=
  let buf := ctx.buf.splice displayIndex [index]
  { ctx with
    buf := buf.splice partialStr (buf.read (fullStr + index.toNat) 12) }

/-- `ui_getPublicKey_compare_button`. -/
def getPublicKeyCompareButton (device : Device .nanoS) (press : Press) :
    Outcome .nanoS :=
  let index := device.ctx.buf.get displayIndex
  match press with
  | .seekLeft => device.proceed
      (moveWindow (if 0 < index then index - 1 else index) device.ctx)
      device.screen
  | .seekRight => device.proceed
      (moveWindow (if index.toNat < MAX_ONE_ADDRESS - 12 then index + 1
        else index) device.ctx)
      device.screen
  | .releasedBoth => device.proceed device.ctx .idle
  | _ => { device := device }

/-- The comparison screen, on the address in `G_io_apdu_buffer`. -/
def Device.compareAddress (device : Device .nanoS) : Ctx .nanoS :=
  let buf := device.ctx.buf.splice typeStr (ascii "Compare:" ++ [0])
  let buf := buf.splice fullStr (device.io.read 0 MAX_ONE_ADDRESS ++ [0])
  let buf := buf.splice partialStr (buf.read fullStr 12 ++ [0])
  { device.ctx with buf := buf.splice displayIndex [0] }

/-- `ui_getPublicKey_approve_button`. -/
def getPublicKeyApproveButton (env : Env) (device : Device .nanoS)
    (press : Press) : Outcome .nanoS :=
  match press with
  | .releasedLeft => device.reject
  | .releasedRight =>
      let outcome := getPublicKey env device
      { outcome with device := { outcome.device with
          ctx := outcome.device.compareAddress
          screen := .getPublicKeyCompare } }
  | _ => { device := device }

end NanoS

/-- The callbacks of `ux_display_public_flow`. -/
def displayPublicFlowStep (device : Device .nanoX) (press : Press) :
    Outcome .nanoX :=
  match press with
  | .accept => device.respondIdle SW_OK MAX_ONE_ADDRESS
  | .cancel => device.reject
  | _ => { device := device }

/-- What `handleGetPublicKey` does to show the address. -/
def displayAddress (env : Env) :
    (build : Build) -> Device build -> Outcome build
  | .nanoS, device =>
      device.proceed { device.ctx with
        buf := device.ctx.buf.splice typeStr
          (ascii "Display Address?" ++ [0]) } .getPublicKeyApprove
  | .nanoX, device =>
      let fetched := getOneAddress env device
      fetched.proceed { fetched.ctx with
        buf := fetched.ctx.buf.splice fullStr
          (fetched.io.read 0 MAX_ONE_ADDRESS ++ [0]) } .displayPublicFlow

/-- `handleGetPublicKey`. -/
def handleGetPublicKey (env : Env) (p2 : UInt8) (device : Device build) :
    Outcome build :=
  let device := { device with ctx := device.ctx.clearForPublicKey }
  if p2 = P2_DISPLAY_ADDRESS then displayAddress env build device
  else if p2 = P2_SILENT_MODE then getPublicKey env device
  else device.throw device.ctx SW_INVALID_PARAM

end LedgerOne
