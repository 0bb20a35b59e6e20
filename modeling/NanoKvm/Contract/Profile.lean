import Mathlib.Algebra.Group.Nat.Defs

/-!
# Contract profiles

`contract.json` names the capabilities, status flags and peripheral leases, and
`lib.nix` resolves a selection of peripherals into the constants that the firmware,
the drivers and the device tree are all generated from. A selection is either the
PicoClaw LCD alone or any set of the four timers; the empty set is the base profile,
which has no lease and needs no activation.

Read `Profile` for the selections and `Profile.expectedCapabilities`,
`Profile.dormantCapabilities` for the two capability words of the activation protocol.
-/

namespace NanoKvm.Contract

/-- The peripherals of `contract.json` that Linux can lease to the C906L. -/
inductive Peripheral where
  | picoclawLcd | timer4 | timer5 | timer6 | timer7
  deriving DecidableEq, Repr

/-- The capabilities of `abi.capabilities`. -/
inductive Capability where
  | mailbox | shmemHeartbeat | timer4SelfTest | rpmsg
  | timer5SelfTest | timer6SelfTest | timer7SelfTest | picoclawLcd
  deriving DecidableEq, Repr

/-- The bit of a capability in the 64-bit capability word. -/
def Capability.bit : Capability → Nat
  | .mailbox => 0
  | .shmemHeartbeat => 1
  | .timer4SelfTest => 2
  | .rpmsg => 3
  | .timer5SelfTest => 4
  | .timer6SelfTest => 5
  | .timer7SelfTest => 6
  | .picoclawLcd => 7

/-- The capability a lease adds once it is active. -/
def Peripheral.capability : Peripheral → Capability
  | .picoclawLcd => .picoclawLcd
  | .timer4 => .timer4SelfTest
  | .timer5 => .timer5SelfTest
  | .timer6 => .timer6SelfTest
  | .timer7 => .timer7SelfTest

/-- The name of a peripheral in `contract.json`. -/
def Peripheral.name : Peripheral → String
  | .picoclawLcd => "picoclawLcd"
  | .timer4 => "timer4"
  | .timer5 => "timer5"
  | .timer6 => "timer6"
  | .timer7 => "timer7"

/-- The bit of a peripheral in the lease mask. -/
def Peripheral.leaseBit : Peripheral → Nat
  | .timer4 => 0
  | .timer5 => 1
  | .timer6 => 2
  | .timer7 => 3
  | .picoclawLcd => 4

/-- A peripheral selection that `resolvePeripherals` accepts: the LCD must be selected alone. -/
inductive Profile where
  | picoclawLcd
  | timers (timer4 timer5 timer6 timer7 : Bool)
  deriving DecidableEq, Repr

namespace Profile

/-- The selected peripherals in sorted order. -/
def peripherals : Profile → List Peripheral
  | .picoclawLcd => [.picoclawLcd]
  | .timers timer4 timer5 timer6 timer7 =>
      (if timer4 then [.timer4] else []) ++ (if timer5 then [.timer5] else []) ++
        (if timer6 then [.timer6] else []) ++ (if timer7 then [.timer7] else [])

/-- The capabilities that every profile offers before activation. -/
def baseCapabilities : List Capability := [.mailbox, .shmemHeartbeat, .rpmsg]

/-- `capabilityMask`: the sum of the powers of two of the named bits. -/
def capabilityMask (names : List Capability) : Nat :=
  names.foldl (fun mask name => mask + 2 ^ name.bit) 0

/-- `EXPECTED_CAPABILITIES`: the base capabilities and one for each lease. -/
def expectedCapabilities (profile : Profile) : UInt64 :=
  .ofNat (capabilityMask (baseCapabilities ++ profile.peripherals.map Peripheral.capability))

/-- `DORMANT_CAPABILITIES`: what the firmware offers while no lease is active. -/
def dormantCapabilities (_ : Profile) : UInt64 := .ofNat (capabilityMask baseCapabilities)

/-- `LEASE_MASK` -/
def leaseMask (profile : Profile) : UInt64 :=
  .ofNat (profile.peripherals.foldl (fun mask name => mask + 2 ^ name.leaseBit) 0)

/-- `PROFILE_ID` -/
def profileId (profile : Profile) : UInt32 :=
  .ofNat (profile.peripherals.foldl (fun mask name => mask + 2 ^ name.leaseBit) 0 + 1)

/-- `ACTIVATION_REQUIRED`: the profile leases at least one peripheral. -/
def activationRequired (profile : Profile) : Bool := !profile.peripherals.isEmpty

/-- `MANIFEST_FLAG_ACK_REQUIRED` -/
def manifestFlagAckRequired : UInt32 := 0x1

/-- `MANIFEST_FLAG_RPMSG_WHILE_DORMANT` -/
def manifestFlagRpmsgWhileDormant : UInt32 := 0x2

/-- `MANIFEST_FLAGS` -/
def manifestFlags (profile : Profile) : UInt32 :=
  if profile.activationRequired then
    manifestFlagRpmsgWhileDormant + manifestFlagAckRequired
  else manifestFlagRpmsgWhileDormant

/-- `profiles` of `contract.json`. -/
def namedProfiles : List (String × List Peripheral) :=
  [("picoclaw-lcd", [.picoclawLcd]), ("base", []), ("timer4", [.timer4]), ("timer5", [.timer5]),
    ("timer6", [.timer6]), ("timer7", [.timer7]),
    ("all-timers", [.timer4, .timer5, .timer6, .timer7])]

/-- `PROFILE_NAME`: the name of the profile with this selection, or one made of it. -/
def profileName (profile : Profile) : String :=
  match namedProfiles.filter fun entry => entry.2 = profile.peripherals with
  | [(name, _)] => name
  | _ => "custom-" ++ "-".intercalate (profile.peripherals.map Peripheral.name)

/-- A profile with a lease gains a capability by activation. -/
theorem expected_ne_dormant {profile : Profile} (h : profile.activationRequired = true) :
    profile.expectedCapabilities ≠ profile.dormantCapabilities := by
  cases profile with
  | picoclawLcd => decide
  | timers timer4 timer5 timer6 timer7 =>
      revert h
      cases timer4 <;> cases timer5 <;> cases timer6 <;> cases timer7 <;> decide

end Profile

/-- A resolved contract: the profile and the digest of its canonical JSON, which the build
computes and compiles into every component. -/
structure ResolvedContract where
  profile : Profile
  contractSha256 : Vector UInt8 32
  deriving DecidableEq, Repr

/-- A contract of the LCD profile, with the digest left blank. -/
def picoclawContract : ResolvedContract where
  profile := .picoclawLcd
  contractSha256 := Vector.replicate 32 0

end NanoKvm.Contract
