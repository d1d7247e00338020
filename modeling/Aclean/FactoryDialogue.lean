import Aclean.Prog

/-!
# The code of the factory-reset dialogue

`wifi_factory_set` with the bytes it stores and compares, on its own stack and
with the WiFi module at the other end. What it sends goes over the bus's lock
(`Aclean.Locks`); how it ends, and whether it does, is up to the module
(`Aclean.FactoryReset`).

What a store behind the end of `datatmp` does is undefined; the model keeps it
apart from the other variables.
-/

namespace Aclean

/-- `"+++AtCmd\r\n"` -/
def wifiEnterAtMode : List UInt8 := [0x2B, 0x2B, 0x2B, 0x41, 0x74, 0x43, 0x6D, 0x64, 0x0D, 0x0A]

/-- `"AT+CMD=OK\r\n"` -/
def wifiEnterAtModeReturn : List UInt8 :=
  [0x41, 0x54, 0x2B, 0x43, 0x4D, 0x44, 0x3D, 0x4F, 0x4B, 0x0D, 0x0A]

/-- `"AT+Default=1\r\n"` -/
def wifiSetFactory : List UInt8 :=
  [0x41, 0x54, 0x2B, 0x44, 0x65, 0x66, 0x61, 0x75, 0x6C, 0x74, 0x3D, 0x31, 0x0D, 0x0A]

/-- `"AT+Default=OK\r\n"` -/
def wifiSetFactoryReturn : List UInt8 :=
  [0x41, 0x54, 0x2B, 0x44, 0x65, 0x66, 0x61, 0x75, 0x6C, 0x74, 0x3D, 0x4F, 0x4B, 0x0D, 0x0A]

namespace Factory

open Prog

inductive LineOp where
  /-- `rt_sem_take` for three seconds, and what `rt_device_read` then gives byte
  by byte; nothing if the time is over. -/
  | wait
  | store (i : Nat) (v : UInt8)
  | load (i : Nat)
  | send (data : List UInt8)
  deriving DecidableEq, Repr

@[reducible] def LineAr : LineOp → Type
  | .wait => List UInt8
  | .load _ => UInt8
  | _ => Unit

/-- The module, and the stack from `datatmp` on. Each wait delivers a group of
`rounds`; once they are over every wait times out. -/
structure Line where
  rounds : List (List UInt8)
  datatmp : Nat → UInt8

@[reducible] def Line.exec : (o : LineOp) → Line → LineAr o × Line
  | .wait, s => (s.rounds.headD [], { s with rounds := s.rounds.tail })
  | .store i v, s => ((), { s with datatmp := Function.update s.datatmp i v })
  | .load i, s => (s.datatmp i, s)
  | .send _, s => ((), s)

@[reducible] def line : Machine LineOp LineAr Line where
  enabled := fun _ _ _ => true
  exec := fun _ => Line.exec

abbrev LineCode (α : Type) := Prog LineOp LineAr α

abbrev datatmpSize : Nat := 22

structure ReplyVars where
  len : UInt8
  ch : UInt8
  cnt : UInt8
  deriving DecidableEq, Repr

/-- Why a reply loop is left: the answer has come, four waits brought nothing, or
the loop condition `ch` is zero. -/
inductive Exit where
  | replied
  | gaveUp
  | zero
  deriving DecidableEq, Repr

/-- `datatmp[len++] = ch`, as long as there are bytes. -/
def drain : List UInt8 → ReplyVars → LineCode ReplyVars
  | [], v => .ret v
  | ch :: bytes, v => .op (.store v.len.toNat ch) fun _ =>
      drain bytes { v with len := v.len + 1, ch := ch }

/-- `strncmp(s, datatmp, n) == 0`, from index `i` on. -/
def strncmpZero (s : List UInt8) : Nat → Nat → LineCode Bool
  | _, 0 => .ret true
  | i, n + 1 => .op (.load i) fun c =>
      if s.getD i 0 ≠ c then .ret false
      else if c = 0 then .ret true
      else strncmpZero s (i + 1) n

/-- `if(len >= ttllen) if(strncmp(.., len-1) == 0)` -/
def replyCame (expected : List UInt8) (v : ReplyVars) : LineCode Bool :=
  if expected.length ≤ v.len.toNat then strncmpZero expected 0 (v.len.toNat - 1) else .ret false

/-- `if(len == 0) cnt++;` -/
def ReplyVars.counted (v : ReplyVars) : ReplyVars :=
  { v with cnt := if v.len = 0 then v.cnt + 1 else v.cnt }

/-- The body of a reply loop. -/
def replyRound (expected : List UInt8) (v : ReplyVars) : LineCode (ReplyVars × Option Exit) := do
  let bytes ← .op .wait .ret
  let v ← drain bytes v
  let replied ← replyCame expected v
  if replied then .ret (v, some .replied)
  else .ret (v.counted, if v.counted.cnt > 3 then some .gaveUp else none)

/-- So many rounds of a reply loop at most; `none` if it is then still waiting.
The first is a `while(1)`, the second a `while(ch)`. -/
def replyLoop (expected : List UInt8) (untilZero : Bool) : Nat → ReplyVars → LineCode (Option Exit)
  | 0, v => .ret (if untilZero = true ∧ v.ch = 0 then some .zero else none)
  | n + 1, v =>
      if untilZero = true ∧ v.ch = 0 then .ret (some .zero)
      else do
        let r ← replyRound expected v
        match r.2 with
        | some exit => .ret (some exit)
        | none => replyLoop expected untilZero n r.1

abbrev loopStart : ReplyVars := ⟨0, 1, 0⟩

/-- `wifi_factory_set` with so many rounds of each loop at most: has it returned?
The receive thread that it deletes and creates again is left out. -/
def wifiFactorySet (n : Nat) : LineCode Bool := do
  .op (.send wifiEnterAtMode) .ret
  let left ← replyLoop wifiEnterAtModeReturn false n loopStart
  match left with
  | none => .ret false
  | some .gaveUp => .ret true
  | some _ => do
    .op (.send wifiSetFactory) .ret
    let left ← replyLoop wifiSetFactoryReturn true n loopStart
    .ret left.isSome

end Factory

end Aclean
