import Mathlib.Data.List.Induction
import Mathlib.Data.List.Nodup
import Aclean.Pool

/-!
# Sequential histories of shared objects

What a shared state is for, said without threads: the actions on it, when each
may happen and what it does (`Spec`). A history is a list of actions with the
agents that did them, and is legal if every one may happen where it stands
(`Spec.run`). An implementation is right if what its agents saw happen can be
put into one legal history, of which every agent's own actions are a part
(`of`). Such a history is a run of a pool of threads in which each action is
one operation (`Spec.run_pool`).
-/

namespace History

variable {A Act S : Type}

structure Spec (A Act S : Type) where
  enabled : A → Act → S → Bool
  exec : A → Act → S → S

/-- The state behind a legal history. -/
def Spec.run (O : Spec A Act S) : List (A × Act) → S → Option S
  | [], s => some s
  | (a, o) :: h, s => if O.enabled a o s then O.run h (O.exec a o s) else none

variable {O : Spec A Act S} {s s' : S} {h h' : List (A × Act)}

@[simp] theorem Spec.run_nil : O.run [] s = some s := rfl

theorem Spec.run_append : O.run (h ++ h') s = (O.run h s).bind (O.run h') := by
  induction h generalizing s with
  | nil => rfl
  | cons x h ih =>
    obtain ⟨a, o⟩ := x
    change (if O.enabled a o s then O.run (h ++ h') (O.exec a o s) else none) =
      (if O.enabled a o s then O.run h (O.exec a o s) else none).bind (O.run h')
    split
    · exact ih
    · rfl

/-- A history goes on. -/
theorem Spec.run_trans (hh : O.run h s = some s') : O.run (h ++ h') s = O.run h' s' := by
  rw [run_append, hh]
  rfl

theorem Spec.run_snoc {a : A} {o : Act} (hrun : O.run (h ++ [(a, o)]) s = some s') :
    ∃ s₁, O.run h s = some s₁ ∧ O.enabled a o s₁ = true ∧ O.exec a o s₁ = s' := by
  rw [run_append] at hrun
  obtain ⟨s₁, hs₁, hlast⟩ := Option.bind_eq_some_iff.mp hrun
  change (if O.enabled a o s₁ then some (O.exec a o s₁) else none) = some s' at hlast
  split at hlast
  · next hon => exact ⟨s₁, hs₁, hon, Option.some.inj hlast⟩
  · cases hlast

/-! ## One agent's part -/

variable [DecidableEq A] {a b : A}

/-- The actions of `a`. -/
def of (a : A) (h : List (A × Act)) : List Act :=
  h.filterMap fun x => if x.1 = a then some x.2 else none

@[simp] theorem of_nil : of a ([] : List (A × Act)) = [] := rfl

@[simp] theorem of_append : of a (h ++ h') = of a h ++ of a h' := List.filterMap_append

theorem of_cons_self {o : Act} : of a ((a, o) :: h) = o :: of a h :=
  List.filterMap_cons_some (if_pos rfl)

theorem of_cons_ne {o : Act} (hne : b ≠ a) : of a ((b, o) :: h) = of a h :=
  List.filterMap_cons_none (if_neg hne)

/-- Actions of one agent. -/
theorem of_own {os : List Act} : of a (os.map (a, ·)) = os := by
  induction os with
  | nil => rfl
  | cons o os ih => exact of_cons_self.trans (congrArg _ ih)

theorem of_others {os : List Act} (hne : b ≠ a) : of a (os.map (b, ·)) = [] := by
  induction os with
  | nil => rfl
  | cons o os ih => exact (of_cons_ne hne).trans ih

/-- One action for each agent of a list that has `a`. -/
theorem of_each {B : Type} {f : B → A} {g : B → Act} {bs : List B} {c : B} (hf : f.Injective)
    (hnodup : bs.Nodup) (hc : c ∈ bs) : of (f c) (bs.map fun b => (f b, g b)) = [g c] := by
  induction bs with
  | nil => cases hc
  | cons b bs ih =>
    obtain ⟨hb, hbs⟩ := List.nodup_cons.mp hnodup
    rcases List.mem_cons.mp hc with rfl | hc
    · refine of_cons_self.trans (congrArg _ ?_)
      refine List.filterMap_eq_nil_iff.mpr fun x hx => ?_
      obtain ⟨d, hd, rfl⟩ := List.mem_map.mp hx
      exact if_neg fun heq : f d = f c => hb (hf heq ▸ hd)
    · exact (of_cons_ne fun heq : f b = f c => hb (hf heq ▸ hc)).trans (ih hbs hc)

theorem of_each_not {B : Type} {f : B → A} {g : B → Act} {bs : List B} (ha : ∀ b ∈ bs, f b ≠ a) :
    of a (bs.map fun b => (f b, g b)) = [] :=
  List.filterMap_eq_nil_iff.mpr fun x hx => by
    obtain ⟨d, hd, rfl⟩ := List.mem_map.mp hx
    exact if_neg (ha d hd)

/-! ## As a pool of threads -/

open Aclean

/-- A thread's actions one after the other. -/
def script : List Act → Prog Act (fun _ => Unit) Unit
  | [] => .ret ()
  | o :: os => .op o fun _ => script os

/-- The object shared by threads and an environment. -/
@[reducible] def Spec.system (O : Spec (Option Nat) Act S) : System Act (fun _ => Unit) S Act where
  enabled t o s := O.enabled (some t) o s
  exec t o s := ((), O.exec (some t) o s)
  envEnabled o s := O.enabled none o s
  envExec o s := O.exec none o s

/-- A legal history is a run of threads that have its actions in their scripts. -/
theorem Spec.run_pool {O : Spec (Option Nat) Act S} {h : List (Option Nat × Act)} {s s' : S}
    {all rest : Nat → List Act} (hrun : O.run h s = some s')
    (hall : ∀ t, all t = of (some t) h ++ rest t) :
    ∃ tr, Run O.system anyStep ⟨s, fun t => script (all t)⟩ tr ⟨s', fun t => script (rest t)⟩ := by
  induction h using List.reverseRecOn generalizing s' rest with
  | nil =>
    obtain rfl := Option.some.inj hrun
    obtain rfl : all = rest := funext hall
    exact ⟨[], .start⟩
  | append_singleton h x ih =>
    obtain ⟨a, o⟩ := x
    obtain ⟨s₁, hs₁, hon, rfl⟩ := run_snoc hrun
    cases a with
    | none =>
      obtain ⟨tr, hbefore⟩ := @ih _ rest hs₁ fun t => by
        rw [hall, of_append, of_cons_ne (Option.some_ne_none t).symm, of_nil, List.append_nil]
      exact ⟨_, hbefore.env hon trivial⟩
    | some t =>
      -- before its last action, thread `t` has it in front of the rest
      obtain ⟨tr, hbefore⟩ := @ih _ (Function.update rest t (o :: rest t)) hs₁ fun u => by
        rw [hall, of_append, List.append_assoc]
        by_cases hu : u = t
        · subst hu
          rw [of_cons_self, of_nil, Function.update_self]
          rfl
        · rw [of_cons_ne fun heq => hu (Option.some.inj heq).symm, of_nil, Function.update_of_ne hu]
          rfl
      have hnext : script (Function.update rest t (o :: rest t) t) =
          .op o fun _ => script (rest t) := by
        rw [Function.update_self]
        rfl
      have hafter : Function.update (fun u => script (Function.update rest t (o :: rest t) u)) t
          (script (rest t)) = fun u => script (rest u) := by
        funext u
        by_cases hu : u = t
        · subst hu
          rw [Function.update_self]
        · rw [Function.update_of_ne hu, Function.update_of_ne hu]
      have hstep := hbefore.op hnext hon trivial
      rw [hafter] at hstep
      exact ⟨_, hstep⟩

end History
