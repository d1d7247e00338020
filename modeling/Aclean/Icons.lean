import Aclean.DispBoard
import Aclean.Switches
import Mathlib.Data.List.Nodup

/-!
# Switching icons

`Ht1621_on_disp` and `Ht1621_off_disp` are chains of nineteen tests of their
argument. Each test guards one statement, which writes the entry of
`Ht1621Tab2` its icon lives in. From icon 12 on a test is followed by a
statement it does not guard: the display byte that the icon shares with
others is put together again, whatever the argument.

The board of switches this makes: every icon on its own, but the three wind
speeds in one group, since switching one on assigns the entry they share.
-/

namespace Aclean

namespace Icons

open Switches

/-! ## The chains of tests -/

/-- The two bytes of the display that are put together from other entries. -/
inductive SharedLine where
  | wind
  | lamp
  deriving DecidableEq, Repr

namespace SharedLine

def shown : SharedLine → Nat
  | wind => 12
  | lamp => 0

def latches : SharedLine → List Nat
  | wind => [18, 17]
  | lamp => [13, 14, 15, 16]

def joined (tab : Nat → UInt8) : SharedLine → UInt8
  | wind => tab 18 ||| tab 17
  | lamp => tab 13 ||| tab 14 ||| tab 15 ||| tab 16

end SharedLine

/-- One `if(f==..)` of the chains: the entry and the bit of its statement, and
the line that the next statement puts together. -/
structure IconTest where
  f : UInt8
  entry : Nat
  bit : UInt8
  line : Option SharedLine
  deriving DecidableEq, Repr

/-- The tests of both chains, in the order of the source. -/
def iconTests : List IconTest :=
  [⟨1, 1, 0x01, none⟩, ⟨2, 2, 0x01, none⟩, ⟨3, 3, 0x01, none⟩, ⟨4, 4, 0x01, none⟩,
    ⟨5, 5, 0x01, none⟩, ⟨6, 6, 0x01, none⟩, ⟨7, 7, 0x01, none⟩, ⟨8, 8, 0x01, none⟩,
    ⟨9, 9, 0x01, none⟩, ⟨10, 10, 0x01, none⟩, ⟨11, 11, 0x01, none⟩,
    ⟨12, 17, 0x01, some .wind⟩, ⟨13, 18, 0x08, some .wind⟩, ⟨14, 18, 0x04, some .wind⟩,
    ⟨15, 18, 0x02, some .wind⟩,
    ⟨16, 16, 0x08, some .lamp⟩, ⟨17, 15, 0x04, some .lamp⟩, ⟨18, 14, 0x02, some .lamp⟩,
    ⟨19, 13, 0x01, some .lamp⟩]

namespace IconTest

/-- Where the icon is shown: in its own entry, or in the line it shares. -/
def shown (t : IconTest) : Nat :=
  match t.line with
  | none => t.entry
  | some l => l.shown

def rebuild (tab : Nat → UInt8) (t : IconTest) : Nat → UInt8 :=
  match t.line with
  | none => tab
  | some l => Function.update tab l.shown (l.joined tab)

/-- The `if` with its statement, which writes `new` of the bit and the old
value, and the line put together after it. -/
def switch (new : UInt8 → UInt8 → UInt8) (f : UInt8) (tab : Nat → UInt8) (t : IconTest) :
    Nat → UInt8 :=
  t.rebuild (if f = t.f then Function.update tab t.entry (new t.bit (tab t.entry)) else tab)

end IconTest

def chain (new : UInt8 → UInt8 → UInt8) (f : UInt8) (tab : Nat → UInt8) : Nat → UInt8 :=
  iconTests.foldl (IconTest.switch new f) tab

/-- `Ht1621Tab2[..]&=~..` -/
def ht1621OffDisp (f : UInt8) (tab : Nat → UInt8) : Nat → UInt8 :=
  chain (fun bit v => v &&& ~~~bit) f tab

/-- `Ht1621Tab2[..]=..` -/
def ht1621OnDisp (f : UInt8) (tab : Nat → UInt8) : Nat → UInt8 :=
  chain (fun bit _ => bit) f tab

/-- The icon part of `Ht1621_clrbuf`. -/
def ht1621Clrbuf (tab : Nat → UInt8) : Nat → UInt8 := fun e => if e ≤ 18 then 0 else tab e

/-- One call, with any byte as its argument. -/
def step (tab : Nat → UInt8) : Switches.Call UInt8 → Nat → UInt8
  | .on f => ht1621OnDisp f tab
  | .off f => ht1621OffDisp f tab

/-- The table after the calls, from the cleared display. -/
def run (tab : Nat → UInt8) (calls : List (Switches.Call UInt8)) : Nat → UInt8 :=
  calls.foldl step (ht1621Clrbuf tab)

/-- The bit of icon `i` is set in the byte that is shown. -/
def Lit (i : UInt8) (tab : Nat → UInt8) : Prop :=
  ∃ t ∈ iconTests, t.f = i ∧ tab t.shown &&& t.bit ≠ 0

/-! ## Where the chains write -/

/-- Entries that hold an icon are apart from the lines, and those of one line
are its latches. -/
theorem entry_latch {t : IconTest} (ht : t ∈ iconTests) (l : SharedLine) :
    t.entry ≠ l.shown ∧ (t.line ≠ some l → t.entry ∉ l.latches) := by
  revert t
  cases l <;> simp [iconTests, SharedLine.shown, SharedLine.latches]

theorem tests_nodup : (iconTests.map IconTest.f).Nodup := by decide

/-- A line reads its latches only. -/
theorem joined_congr {l : SharedLine} {tab tab' : Nat → UInt8}
    (h : ∀ e ∈ l.latches, tab' e = tab e) : l.joined tab' = l.joined tab := by
  cases l <;> simp_all [SharedLine.latches, SharedLine.joined]

theorem shown_not_latch (l l' : SharedLine) : l.shown ∉ l'.latches := by
  cases l <;> cases l' <;> decide

theorem shown_inj {l l' : SharedLine} (h : l.shown = l'.shown) : l = l' := by
  cases l <;> cases l' <;> first | rfl | exact absurd h (by decide)

section Chain

variable (new : UInt8 → UInt8 → UInt8) (f : UInt8)

theorem rebuild_latch (t : IconTest) (tab : Nat → UInt8) {e : Nat}
    (he : ∀ l : SharedLine, e ≠ l.shown) : t.rebuild tab e = tab e := by
  unfold IconTest.rebuild
  cases t.line with
  | none => rfl
  | some l => exact Function.update_of_ne (he l) _ _

theorem switch_latch (t : IconTest) (tab : Nat → UInt8) {e : Nat}
    (he : ∀ l : SharedLine, e ≠ l.shown) :
    t.switch new f tab e = if f = t.f ∧ e = t.entry then new t.bit (tab e) else tab e := by
  rw [IconTest.switch, rebuild_latch t _ he]
  by_cases hf : f = t.f
  · rw [if_pos hf, Function.update_apply]
    by_cases hentry : e = t.entry
    · rw [if_pos hentry, if_pos ⟨hf, hentry⟩, hentry]
    · rw [if_neg hentry, if_neg (fun h => hentry h.2)]
  · rw [if_neg hf, if_neg (fun h => hf h.1)]

/-- Tests of other icons leave the entries alone. -/
theorem foldl_switch_other {tests : List IconTest} (h : ∀ t ∈ tests, f ≠ t.f)
    (tab : Nat → UInt8) {e : Nat} (he : ∀ l : SharedLine, e ≠ l.shown) :
    tests.foldl (IconTest.switch new f) tab e = tab e := by
  induction tests generalizing tab with
  | nil => rfl
  | cons t tests ih =>
    rw [List.foldl_cons, ih (fun u hu => h u (List.mem_cons_of_mem _ hu)),
      switch_latch new f t tab he, if_neg (fun hc => h t List.mem_cons_self hc.1)]

theorem chain_other (h : ∀ t ∈ iconTests, f ≠ t.f) (tab : Nat → UInt8) {e : Nat}
    (he : ∀ l : SharedLine, e ≠ l.shown) : chain new f tab e = tab e :=
  foldl_switch_other new f h tab he

/-- The one test that names the icon writes its entry, no other does. -/
theorem chain_latch {t : IconTest} (ht : t ∈ iconTests) (tab : Nat → UInt8) {e : Nat}
    (he : ∀ l : SharedLine, e ≠ l.shown) :
    chain new t.f tab e = if e = t.entry then new t.bit (tab e) else tab e := by
  obtain ⟨pre, post, hsplit⟩ := List.append_of_mem ht
  have hnodup := tests_nodup
  rw [hsplit, List.map_append, List.map_cons] at hnodup
  obtain ⟨-, htail, hapart⟩ := List.nodup_append.mp hnodup
  have hpre : ∀ u ∈ pre, t.f ≠ u.f := fun u hu =>
    (hapart u.f (List.mem_map_of_mem hu) t.f List.mem_cons_self).symm
  have hpost : ∀ u ∈ post, t.f ≠ u.f := by
    intro u hu hf
    exact (List.nodup_cons.mp htail).1 (hf ▸ List.mem_map_of_mem hu)
  rw [chain, hsplit, List.foldl_append, List.foldl_cons, foldl_switch_other new t.f hpost _ he,
    switch_latch new t.f t _ he, foldl_switch_other new t.f hpre tab he]
  simp

/-! ## The lines stay together -/

/-- Both display bytes are what their latches give. -/
def Joined (tab : Nat → UInt8) : Prop := ∀ l : SharedLine, tab l.shown = l.joined tab

theorem joined_update {tab : Nat → UInt8} {l : SharedLine} {e : Nat} (v : UInt8)
    (hshown : e ≠ l.shown) (hlatch : e ∉ l.latches) (h : tab l.shown = l.joined tab) :
    Function.update tab e v l.shown = l.joined (Function.update tab e v) := by
  rw [Function.update_of_ne hshown.symm, h]
  refine (joined_congr fun i hi => ?_).symm
  have hie : i ≠ e := fun hie => hlatch (hie ▸ hi)
  exact Function.update_of_ne hie _ _

/-- A line that is rebuilt is together whatever was written before. -/
theorem joined_rebuild (tab : Nat → UInt8) (l : SharedLine) :
    Function.update tab l.shown (l.joined tab) l.shown =
      l.joined (Function.update tab l.shown (l.joined tab)) := by
  rw [Function.update_self]
  refine (joined_congr fun i hi => ?_).symm
  have hie : i ≠ l.shown := fun hie => shown_not_latch l l (hie ▸ hi)
  exact Function.update_of_ne hie _ _

/-- A test keeps each line together, and puts its own together. -/
theorem switch_joined {t : IconTest} (ht : t ∈ iconTests) {tab : Nat → UInt8} {l : SharedLine}
    (h : tab l.shown = l.joined tab ∨ t.line = some l) :
    t.switch new f tab l.shown = l.joined (t.switch new f tab) := by
  have hwritten : t.line ≠ some l →
      (if f = t.f then Function.update tab t.entry (new t.bit (tab t.entry)) else tab) l.shown =
        l.joined (if f = t.f then Function.update tab t.entry (new t.bit (tab t.entry))
          else tab) := by
    intro hline
    have hl := h.resolve_right hline
    split
    · exact joined_update _ (entry_latch ht l).1 ((entry_latch ht l).2 hline) hl
    · exact hl
  unfold IconTest.switch IconTest.rebuild
  cases hline : t.line with
  | none => exact hwritten (by simp [hline])
  | some k =>
    by_cases hk : k = l
    · subst hk
      exact joined_rebuild _ k
    · have hne : k.shown ≠ l.shown := fun hs => hk (shown_inj hs)
      exact joined_update _ hne (shown_not_latch k l) (hwritten (by simpa [hline] using hk))

theorem foldl_switch_joined {tests : List IconTest} (hsub : ∀ t ∈ tests, t ∈ iconTests)
    {tab : Nat → UInt8} {l : SharedLine}
    (h : tab l.shown = l.joined tab ∨ ∃ t ∈ tests, t.line = some l) :
    tests.foldl (IconTest.switch new f) tab l.shown =
      l.joined (tests.foldl (IconTest.switch new f) tab) := by
  induction tests generalizing tab with
  | nil => simpa using h
  | cons t tests ih =>
    have ht := hsub t List.mem_cons_self
    refine ih (fun u hu => hsub u (List.mem_cons_of_mem _ hu)) ?_
    rcases h with hl | ⟨u, hu, hline⟩
    · exact Or.inl (switch_joined new f ht (Or.inl hl))
    · rcases List.mem_cons.mp hu with rfl | hu
      · exact Or.inl (switch_joined new f ht (Or.inr hline))
      · exact Or.inr ⟨u, hu, hline⟩

/-- Every call puts both lines together. -/
theorem chain_joined (tab : Nat → UInt8) : Joined (chain new f tab) := by
  intro l
  refine foldl_switch_joined new f (fun _ ht => ht) (Or.inr ?_)
  cases l <;> decide

end Chain

/-! ### The calls of the other modules -/

theorem chain_recombine (new : UInt8 → UInt8 → UInt8) {t : IconTest} (ht : t ∈ iconTests)
    (tab : Nat → UInt8) : chain new t.f tab =
      recombine (Function.update tab t.entry (new t.bit (tab t.entry))) := by
  have hlatch : ∀ e, (∀ l : SharedLine, e ≠ l.shown) → chain new t.f tab e =
      Function.update tab t.entry (new t.bit (tab t.entry)) e := by
    intro e he
    rw [chain_latch new ht tab he, Function.update_apply]
    split
    · next hentry => rw [hentry]
    · rfl
  have hline : ∀ (l : SharedLine) (i : Nat), i ∈ l.latches → chain new t.f tab i =
      Function.update tab t.entry (new t.bit (tab t.entry)) i := fun l i hi =>
    hlatch i (fun k hk => shown_not_latch k l (hk ▸ hi))
  funext e
  by_cases he0 : e = 0
  · subst he0
    refine (chain_joined new t.f tab .lamp).trans ?_
    rw [joined_congr (hline .lamp)]
    simp [recombine, SharedLine.joined]
  · by_cases he12 : e = 12
    · subst he12
      refine (chain_joined new t.f tab .wind).trans ?_
      rw [joined_congr (hline .wind)]
      simp [recombine, SharedLine.joined]
    · rw [hlatch e (fun l => by cases l <;> assumption), recombine, Function.update_of_ne he0,
        Function.update_of_ne he12]

theorem iconPlace_test {t : IconTest} (ht : t ∈ iconTests) :
    iconPlace t.f.toNat = (t.entry, t.bit) := by
  revert t
  decide

theorem onDisp_chain (sc : Screen) {t : IconTest} (ht : t ∈ iconTests) :
    (sc.ht1621OnDisp t.f.toNat).ht1621Tab2 = ht1621OnDisp t.f sc.ht1621Tab2 := by
  rw [ht1621OnDisp, chain_recombine _ ht, Screen.ht1621OnDisp, iconPlace_test ht]

theorem offDisp_chain (sc : Screen) {t : IconTest} (ht : t ∈ iconTests) :
    (sc.ht1621OffDisp t.f.toNat).ht1621Tab2 = ht1621OffDisp t.f sc.ht1621Tab2 := by
  rw [ht1621OffDisp, chain_recombine _ ht, Screen.ht1621OffDisp, iconPlace_test ht]

/-! ## The board of switches -/

/-- The wind speeds share a group. -/
def windGroup (f : UInt8) : UInt8 := if 13 ≤ f ∧ f ≤ 15 then 13 else f

theorem entry_group {t u : IconTest} (ht : t ∈ iconTests) (hu : u ∈ iconTests) :
    windGroup t.f = windGroup u.f ↔ t.entry = u.entry := by
  have h : ∀ t ∈ iconTests, ∀ u ∈ iconTests,
      (windGroup t.f = windGroup u.f ↔ t.entry = u.entry) := by decide
  exact h t ht u hu

theorem test_inj {t u : IconTest} (ht : t ∈ iconTests) (hu : u ∈ iconTests) (h : t.f = u.f) :
    t = u :=
  List.inj_on_of_nodup_map tests_nodup ht hu h

/-- Icons in one entry have bits of their own. -/
theorem bit_apart {t u : IconTest} (ht : t ∈ iconTests) (hu : u ∈ iconTests)
    (h : t.entry = u.entry) :
    t.bit ≠ 0 ∧ (t.bit = u.bit → t = u) ∧ (t ≠ u → u.bit &&& ~~~t.bit = u.bit) := by
  have hall : ∀ t ∈ iconTests, ∀ u ∈ iconTests, t.entry = u.entry →
      t.bit ≠ 0 ∧ (t.bit = u.bit → t = u) ∧ (t ≠ u → u.bit &&& ~~~t.bit = u.bit) := by decide
  exact hall t ht u hu h

theorem own_entry {t u : IconTest} (ht : t ∈ iconTests) (hu : u ∈ iconTests)
    (hline : t.line = none) (h : t.entry = u.entry) : t = u := by
  have hall : ∀ t ∈ iconTests, ∀ u ∈ iconTests, t.line = none → t.entry = u.entry → t = u := by
    decide
  exact hall t ht u hu hline h

/-- The bytes that name an icon. -/
theorem named_icon {f : UInt8} (h1 : 1 ≤ f) (h19 : f ≤ 19) : ∃ t ∈ iconTests, t.f = f := by
  have hall : ∀ n < 20, 1 ≤ n → UInt8.ofNat n ∈ iconTests.map IconTest.f := by decide
  have hlt : f.toNat < 20 := Nat.lt_succ_of_le (UInt8.le_iff_toNat_le.mp h19)
  obtain ⟨t, ht, htf⟩ := List.mem_map.mp (hall f.toNat hlt (UInt8.le_iff_toNat_le.mp h1))
  rw [UInt8.ofNat_toNat] at htf
  exact ⟨t, ht, htf⟩

/-- The table shows the switches that are on: the lines are together, and each
latch is clear or holds the bit of the one icon of its group that is on. -/
structure Shows (S : Set UInt8) (tab : Nat → UInt8) : Prop where
  joined : Joined tab
  held : ∀ t ∈ iconTests, tab t.entry = 0 ∨
    ∃ u ∈ iconTests, u.entry = t.entry ∧ tab t.entry = u.bit
  on_iff : ∀ t ∈ iconTests, tab t.entry = t.bit ↔ t.f ∈ S

theorem entry_ne_shown {t : IconTest} (ht : t ∈ iconTests) (l : SharedLine) :
    t.entry ≠ l.shown :=
  (entry_latch ht l).1

theorem shows_clear (tab : Nat → UInt8) : Shows ∅ (ht1621Clrbuf tab) where
  joined := fun l => by cases l <;> simp [ht1621Clrbuf, SharedLine.shown, SharedLine.joined]
  held := fun t ht => by
    left
    revert t
    simp [iconTests, ht1621Clrbuf]
  on_iff := fun t ht => by
    have hzero : ht1621Clrbuf tab t.entry = 0 := by
      revert t
      simp [iconTests, ht1621Clrbuf]
    rw [hzero]
    exact iff_of_false (fun h => (bit_apart ht ht rfl).1 h.symm) (Set.notMem_empty _)

theorem group_unnamed {f : UInt8} (hf : ∀ t ∈ iconTests, f ≠ t.f) {t : IconTest}
    (ht : t ∈ iconTests) : windGroup t.f ≠ windGroup f := by
  have hwind : ¬ (13 ≤ f ∧ f ≤ 15) := by
    rintro ⟨h13, h15⟩
    have h1 : (1 : UInt8) ≤ f := le_trans (show 1 ≤ 13 by decide) h13
    have h19 : f ≤ 19 := le_trans h15 (show 15 ≤ 19 by decide)
    obtain ⟨u, hu, rfl⟩ := named_icon h1 h19
    exact hf u hu rfl
  obtain ⟨u, hu, hgroup⟩ : ∃ u ∈ iconTests, u.f = windGroup t.f := by
    revert t
    decide
  rw [← hgroup, windGroup, if_neg hwind]
  exact (hf u hu).symm

section Steps

variable {S : Set UInt8} {tab : Nat → UInt8}

/-- A call that names no icon changes no latch. -/
theorem Shows.unnamed (h : Shows S tab) {f : UInt8} (hf : ∀ t ∈ iconTests, f ≠ t.f)
    {new : UInt8 → UInt8 → UInt8} {S' : Set UInt8}
    (hS : ∀ t ∈ iconTests, t.f ∈ S' ↔ t.f ∈ S) : Shows S' (chain new f tab) := by
  have hsame : ∀ t ∈ iconTests, chain new f tab t.entry = tab t.entry := fun t ht =>
    chain_other new f hf tab (entry_ne_shown ht)
  refine ⟨chain_joined new f tab, ?_, ?_⟩
  · intro t ht
    rw [hsame t ht]
    exact h.held t ht
  · intro t ht
    rw [hsame t ht, h.on_iff t ht, hS t ht]

theorem Shows.on (h : Shows S tab) (f : UInt8) :
    Shows ((Call.on f).apply windGroup S) (ht1621OnDisp f tab) := by
  by_cases hf : ∀ t ∈ iconTests, f ≠ t.f
  · refine h.unnamed hf fun t ht => ?_
    rw [Call.mem_apply_on]
    have hne := hf t ht
    have hgroup := group_unnamed hf ht
    tauto
  · push Not at hf
    obtain ⟨u, hu, rfl⟩ := hf
    have hlatch : ∀ t ∈ iconTests, ht1621OnDisp u.f tab t.entry =
        if t.entry = u.entry then u.bit else tab t.entry := fun t ht =>
      chain_latch _ hu tab (entry_ne_shown ht)
    refine ⟨chain_joined _ u.f tab, ?_, ?_⟩
    · intro t ht
      rw [hlatch t ht]
      split
      · next hentry => exact Or.inr ⟨u, hu, hentry.symm, rfl⟩
      · exact h.held t ht
    · intro t ht
      rw [hlatch t ht, Call.mem_apply_on, Ne, entry_group ht hu]
      by_cases hentry : t.entry = u.entry
      · rw [if_pos hentry]
        constructor
        · intro hbit
          exact Or.inl (congrArg IconTest.f ((bit_apart ht hu hentry).2.1 hbit.symm))
        · rintro (hname | ⟨hother, -⟩)
          · rw [test_inj ht hu hname]
          · exact absurd hentry hother
      · rw [if_neg hentry, h.on_iff t ht]
        have hname : t.f ≠ u.f := fun hname => hentry (congrArg _ (test_inj ht hu hname))
        tauto

theorem Shows.off (h : Shows S tab) (f : UInt8) :
    Shows ((Call.off f).apply windGroup S) (ht1621OffDisp f tab) := by
  by_cases hf : ∀ t ∈ iconTests, f ≠ t.f
  · refine h.unnamed hf fun t ht => ?_
    rw [Call.mem_apply_off]
    exact and_iff_right (hf t ht).symm
  · push Not at hf
    obtain ⟨u, hu, rfl⟩ := hf
    have hlatch : ∀ t ∈ iconTests, ht1621OffDisp u.f tab t.entry =
        if t.entry = u.entry then tab t.entry &&& ~~~u.bit else tab t.entry := fun t ht =>
      chain_latch _ hu tab (entry_ne_shown ht)
    refine ⟨chain_joined _ u.f tab, ?_, ?_⟩
    · intro t ht
      rw [hlatch t ht]
      split
      · next hentry =>
          rcases h.held t ht with hclear | ⟨w, hw, hwt, hbit⟩
          · exact Or.inl (by rw [hclear, UInt8.zero_and])
          · by_cases huw : u = w
            · exact Or.inl (by rw [hbit, huw, UInt8.and_not_self])
            · have hkept := (bit_apart hu hw (hentry.symm.trans hwt.symm)).2.2 huw
              exact Or.inr ⟨w, hw, hwt, by rw [hbit, hkept]⟩
      · exact h.held t ht
    · intro t ht
      rw [hlatch t ht, Call.mem_apply_off, ← h.on_iff t ht]
      by_cases hentry : t.entry = u.entry
      · rw [if_pos hentry]
        have hset := (bit_apart ht hu hentry).1.symm
        rcases h.held t ht with hclear | ⟨w, hw, hwt, hbit⟩
        · rw [hclear, UInt8.zero_and]
          exact iff_of_false hset (fun hc => hset hc.2)
        · have hwhich : w.bit = t.bit → w = t := (bit_apart hw ht hwt).2.1
          rw [hbit]
          by_cases huw : u = w
          · subst huw
            rw [UInt8.and_not_self]
            refine iff_of_false hset fun hc => hc.1 ?_
            rw [hwhich hc.2]
          · rw [(bit_apart hu hw (hentry.symm.trans hwt.symm)).2.2 huw]
            refine ⟨fun hb => ⟨fun hname => huw ?_, hb⟩, And.right⟩
            rw [hwhich hb, test_inj ht hu hname]
      · rw [if_neg hentry]
        have hname : t.f ≠ u.f := fun hname => hentry (congrArg _ (test_inj ht hu hname))
        exact (and_iff_right hname).symm

theorem Shows.step (h : Shows S tab) (c : Switches.Call UInt8) :
    Shows (c.apply windGroup S) (step tab c) := by
  cases c with
  | on f => exact h.on f
  | off f => exact h.off f

end Steps

/-- After any calls the table shows the board of switches. -/
theorem shows_run (tab : Nat → UInt8) (calls : List (Switches.Call UInt8)) :
    Shows (lit windGroup calls) (run tab calls) := by
  induction calls using List.reverseRecOn with
  | nil => exact shows_clear tab
  | append_singleton calls c ih =>
    rw [lit_snoc, run, List.foldl_append, List.foldl_cons, List.foldl_nil]
    exact ih.step c

/-! ## What is lit -/

namespace Shows

variable {S : Set UInt8} {tab : Nat → UInt8}

/-- The values of a latch are those of its own icons. -/
theorem latch_cases (h : Shows S tab) {t : IconTest} (ht : t ∈ iconTests) :
    tab t.entry ∈ 0 :: (iconTests.filter (fun u => u.entry = t.entry)).map IconTest.bit := by
  rcases h.held t ht with hclear | ⟨u, hu, hentry, hbit⟩
  · rw [hclear]
    exact List.mem_cons_self
  · refine List.mem_cons_of_mem _ (List.mem_map.mpr ⟨u, ?_, hbit.symm⟩)
    exact List.mem_filter.mpr ⟨hu, decide_eq_true hentry⟩

theorem wind_lit (h : Shows S tab) : ∀ t ∈ iconTests, t.line = some .wind →
    (SharedLine.wind.joined tab &&& t.bit ≠ 0 ↔ tab t.entry = t.bit) := by
  have h18 := h.latch_cases (show ⟨13, 18, 0x08, some .wind⟩ ∈ iconTests by decide)
  have h17 := h.latch_cases (show ⟨12, 17, 0x01, some .wind⟩ ∈ iconTests by decide)
  simp [iconTests] at h18 h17
  simp only [iconTests, SharedLine.joined, List.forall_mem_cons, List.not_mem_nil, false_imp_iff,
    reduceCtorEq, Option.some.injEq, true_imp_iff, implies_true, and_true, true_and]
  rcases h18 with h18 | h18 | h18 | h18 <;> rcases h17 with h17 | h17 <;> rw [h18, h17] <;> decide

theorem lamp_lit (h : Shows S tab) : ∀ t ∈ iconTests, t.line = some .lamp →
    (SharedLine.lamp.joined tab &&& t.bit ≠ 0 ↔ tab t.entry = t.bit) := by
  have h16 := h.latch_cases (show ⟨16, 16, 0x08, some .lamp⟩ ∈ iconTests by decide)
  have h15 := h.latch_cases (show ⟨17, 15, 0x04, some .lamp⟩ ∈ iconTests by decide)
  have h14 := h.latch_cases (show ⟨18, 14, 0x02, some .lamp⟩ ∈ iconTests by decide)
  have h13 := h.latch_cases (show ⟨19, 13, 0x01, some .lamp⟩ ∈ iconTests by decide)
  simp [iconTests] at h16 h15 h14 h13
  simp only [iconTests, SharedLine.joined, List.forall_mem_cons, List.not_mem_nil, false_imp_iff,
    reduceCtorEq, Option.some.injEq, true_imp_iff, implies_true, and_true, true_and]
  rcases h16 with h16 | h16 <;> rcases h15 with h15 | h15 <;> rcases h14 with h14 | h14 <;>
    rcases h13 with h13 | h13 <;> rw [h16, h15, h14, h13] <;> decide

/-- The bit that is shown is set exactly when the latch holds the icon. -/
theorem shown_bit (h : Shows S tab) {t : IconTest} (ht : t ∈ iconTests) :
    tab t.shown &&& t.bit ≠ 0 ↔ t.f ∈ S := by
  rw [← h.on_iff t ht]
  cases hline : t.line with
  | none =>
    rw [IconTest.shown, hline]
    show tab t.entry &&& t.bit ≠ 0 ↔ _
    have hset := (bit_apart ht ht rfl).1
    rcases h.held t ht with hclear | ⟨u, hu, hentry, hbit⟩
    · rw [hclear, UInt8.zero_and]
      exact iff_of_false (fun hc => hc rfl) hset.symm
    · rw [hbit, ← own_entry ht hu hline hentry.symm, UInt8.and_self]
      exact iff_of_true hset rfl
  | some l =>
    rw [IconTest.shown, hline]
    show tab l.shown &&& t.bit ≠ 0 ↔ _
    rw [h.joined l]
    cases l with
    | wind => exact h.wind_lit t ht hline
    | lamp => exact h.lamp_lit t ht hline

theorem lit_iff (h : Shows S tab) {t : IconTest} (ht : t ∈ iconTests) :
    Lit t.f tab ↔ t.f ∈ S := by
  rw [← h.shown_bit ht]
  constructor
  · rintro ⟨u, hu, hname, hbit⟩
    rwa [test_inj hu ht hname] at hbit
  · intro hbit
    exact ⟨t, ht, rfl, hbit⟩

end Shows

/-- The call names icon `i`. -/
def Names (i : UInt8) : Switches.Call UInt8 → Bool
  | .on f => f = i
  | .off f => f = i

/-- The call puts a wind icon on, or icon `i` off. -/
def NamesWind (i : UInt8) : Switches.Call UInt8 → Bool
  | .on f => 13 ≤ f ∧ f ≤ 15
  | .off f => f = i

theorem concerns_own {i : UInt8} (hi : ¬ (13 ≤ i ∧ i ≤ 15)) :
    Concerns windGroup i = Names i := by
  funext c
  cases c with
  | off f => rfl
  | on f =>
    have hself : windGroup i = i := if_neg hi
    have hgroup : windGroup f = i ↔ f = i := by
      by_cases hf : 13 ≤ f ∧ f ≤ 15
      · rw [windGroup, if_pos hf]
        refine iff_of_false ?_ (fun h => hi (h ▸ hf))
        rintro rfl
        exact hi (by decide)
      · rw [windGroup, if_neg hf]
    simp only [Concerns, Names, hself, hgroup]

theorem concerns_wind {i : UInt8} (hi : 13 ≤ i ∧ i ≤ 15) :
    Concerns windGroup i = NamesWind i := by
  funext c
  cases c with
  | off f => rfl
  | on f =>
    have hself : windGroup i = 13 := if_pos hi
    have hgroup : windGroup f = 13 ↔ 13 ≤ f ∧ f ≤ 15 := by
      by_cases hf : 13 ≤ f ∧ f ≤ 15
      · exact iff_of_true (if_pos hf) hf
      · rw [windGroup, if_neg hf]
        refine iff_of_false ?_ hf
        rintro rfl
        exact hf (by decide)
    simp only [Concerns, NamesWind, hself, hgroup]

theorem lit_run (tab : Nat → UInt8) (calls : List (Switches.Call UInt8)) {i : UInt8} (h1 : 1 ≤ i)
    (h19 : i ≤ 19) :
    Lit i (run tab calls) ↔ lastWith (Concerns windGroup i) calls = some (.on i) := by
  obtain ⟨t, ht, rfl⟩ := named_icon h1 h19
  rw [(shows_run tab calls).lit_iff ht, mem_lit]

theorem icons_exact (tab : Nat → UInt8) (calls : List (Switches.Call UInt8)) :
    (∀ i : UInt8, (1 ≤ i ∧ i ≤ 12) ∨ (16 ≤ i ∧ i ≤ 19) →
      (Lit i (run tab calls) ↔ lastWith (Names i) calls = some (.on i))) ∧
    (∀ i : UInt8, 13 ≤ i ∧ i ≤ 15 →
      (Lit i (run tab calls) ↔ lastWith (NamesWind i) calls = some (.on i))) ∧
    (∀ i j : UInt8, 13 ≤ i ∧ i ≤ 15 → 13 ≤ j ∧ j ≤ 15 →
      Lit i (run tab calls) → Lit j (run tab calls) → i = j) ∧
    run tab calls 12 = run tab calls 17 ||| run tab calls 18 ∧
    run tab calls 0 =
      run tab calls 13 ||| run tab calls 14 ||| run tab calls 15 ||| run tab calls 16 := by
  have hwind : ∀ i : UInt8, 13 ≤ i ∧ i ≤ 15 → 1 ≤ i ∧ i ≤ 19 := fun i hi =>
    ⟨le_trans (show 1 ≤ 13 by decide) hi.1, le_trans hi.2 (show 15 ≤ 19 by decide)⟩
  refine ⟨?_, ?_, ?_, ?_, ?_⟩
  · intro i hi
    have hrange : (1 ≤ i ∧ i ≤ 19) ∧ ¬ (13 ≤ i ∧ i ≤ 15) := by
      simp only [UInt8.le_iff_toNat_le, UInt8.toNat_ofNat] at hi ⊢
      omega
    rw [lit_run tab calls hrange.1.1 hrange.1.2, concerns_own hrange.2]
  · intro i hi
    rw [lit_run tab calls (hwind i hi).1 (hwind i hi).2, concerns_wind hi]
  · intro i j hi hj hlit hlit'
    rw [lit_run tab calls (hwind i hi).1 (hwind i hi).2, ← mem_lit] at hlit
    rw [lit_run tab calls (hwind j hj).1 (hwind j hj).2, ← mem_lit] at hlit'
    refine lit_exclusive windGroup calls hlit hlit' ?_
    rw [windGroup, if_pos hi, windGroup, if_pos hj]
  · rw [UInt8.or_comm]
    exact (shows_run tab calls).joined .wind
  · exact (shows_run tab calls).joined .lamp

/-- Two wind speeds in turn, then the slower one off: the last one stays. -/
theorem icons_exact_wind :
    Lit 14 (run (fun _ => 0) [.on 13, .on 16, .on 14, .off 13]) ∧
      ¬ Lit 13 (run (fun _ => 0) [.on 13, .on 16, .on 14, .off 13]) ∧
      Lit 16 (run (fun _ => 0) [.on 13, .on 16, .on 14, .off 13]) := by
  obtain ⟨hown, hwind, -⟩ := icons_exact (fun _ => 0) [.on 13, .on 16, .on 14, .off 13]
  exact ⟨(hwind 14 (by decide)).mpr (by decide), fun h => absurd ((hwind 13 (by decide)).mp h)
    (by decide), (hown 16 (by decide)).mpr (by decide)⟩

end Icons

end Aclean
