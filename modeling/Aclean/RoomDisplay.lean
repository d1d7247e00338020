import Aclean.FaultIcons
import Aclean.TimerDigits
import Aclean.Rotation

/-!
# Readings on the screen

Once a second the main loop of the display looks for the next room with a
reading and stores the room number and the digits of its two readings in
`Ht1621Tab3`, from where `Ht1621DisplayState` looks each one up in a font of
ten characters. The thousands are not cut down to one digit.
-/

namespace Aclean

open Rotation

/-! ## One refresh -/

/-- `house_id`, the local `mybuff` of `main`, and the digits. -/
structure RoomShow where
  houseId : UInt8
  mybuff : Nat → UInt8
  ht1621Tab3 : Nat → UInt8

/-- The readings of a room in the order of `DEVICE_WORK_TYPE`. -/
def pm25 (house : Nat → UInt16) (room : UInt8) : UInt16 := house (2 * (room.toNat - 1))

def co2 (house : Nat → UInt16) (room : UInt8) : UInt16 := house (2 * (room.toNat - 1) + 1)

/-- The `switch(house_id)`: its five cases differ in the room. -/
def takeRoom (house : Nat → UInt16) (houseId : UInt8) (mybuff : Nat → UInt8) : Nat → UInt8 :=
  if 1 ≤ houseId ∧ houseId ≤ 5 then
    let mybuff := Function.update mybuff 0 (pm25 house houseId >>> 8).toUInt8
    let mybuff := Function.update mybuff 1 (pm25 house houseId &&& 0xff).toUInt8
    let mybuff := Function.update mybuff 2 (co2 house houseId >>> 8).toUInt8
    Function.update mybuff 3 (co2 house houseId &&& 0xff).toUInt8
  else mybuff

/-- Two bytes of `mybuff` put together again. -/
def tmp16 (high low : UInt8) : UInt16 := (high.toUInt16 <<< 8) + low.toUInt16

/-- The digits of a value, highest first. Each is stored in a `u8`. -/
def digits (tmp : UInt16) : List UInt8 :=
  [(tmp / 1000).toUInt8, (tmp % 1000 / 100).toUInt8, (tmp % 1000 % 100 / 10).toUInt8,
    (tmp % 1000 % 100 % 10).toUInt8]

/-- The entries the digits of PM2.5 go to, and those of CO2. -/
def pm25Entries : List Nat := [0, 1, 2, 3]

def co2Entries : List Nat := [10, 9, 8, 7]

def storeDigits (entries : List Nat) (tmp : UInt16) (tab : Nat → UInt8) : Nat → UInt8 :=
  (entries.zip (digits tmp)).foldl (fun tab p => Function.update tab p.1 p.2) tab

/-- `if(house_id>=5) house_id=1; else house_id++;` -/
def nextHouse (houseId : UInt8) : UInt8 := if houseId ≥ 5 then 1 else houseId + 1

/-- One round of the loop up to its test: the room number is shown before its
readings are looked at. -/
def RoomShow.look (house : Nat → UInt16) (s : RoomShow) : RoomShow :=
  { houseId := nextHouse s.houseId
    ht1621Tab3 := Function.update s.ht1621Tab3 4 (nextHouse s.houseId)
    mybuff := takeRoom house (nextHouse s.houseId) s.mybuff }

def RoomShow.empty (s : RoomShow) : Bool :=
  s.mybuff 0 == 0 && s.mybuff 1 == 0 && s.mybuff 2 == 0 && s.mybuff 3 == 0

def RoomShow.store (s : RoomShow) : RoomShow :=
  { s with
    ht1621Tab3 := storeDigits co2Entries (tmp16 (s.mybuff 2) (s.mybuff 3))
      (storeDigits pm25Entries (tmp16 (s.mybuff 0) (s.mybuff 1)) s.ht1621Tab3) }

/-- `for(kk=0;kk<5;kk++)`: an empty room is passed over, any other is shown
and ends the loop. -/
def RoomShow.search (house : Nat → UInt16) : Nat → RoomShow → RoomShow
  | 0, s => s
  | kk + 1, s =>
      if (s.look house).empty then RoomShow.search house kk (s.look house)
      else (s.look house).store

def RoomShow.refresh (house : Nat → UInt16) (s : RoomShow) : RoomShow := s.search house 5

/-! ## The segment writer -/

/-- The font, `0` to `9`. -/
def ht1621Tab1 : List UInt8 := [0xfa, 0x0a, 0xbc, 0x9e, 0x4e, 0xd6, 0xf6, 0x8a, 0xfe, 0xde]

/-- The locals of `Ht1621DisplayState`, and the nibbles written so far. -/
structure Writer where
  addr : Nat
  data : Nat
  string : Nat
  written : List (Nat × UInt8)

namespace Writer

variable (tab2 tab3 : Nat → UInt8)

def wrOneData (addr : Nat) (data : UInt8) (w : Writer) : Writer :=
  { w with written := w.written ++ [(addr, data)] }

/-- The four `if`s of one round. `none` stands for a read behind the font; the
data pointer walks over `DIS_BUF`, whose entries are their own indices. -/
def iconOnly (w : Writer) : Writer :=
  if w.addr = 0 then
    { w.wrOneData (w.addr * 2) (tab2 w.data) with addr := w.addr + 1, data := w.data + 1 }
  else w

def lowHalf (w : Writer) : Option Writer :=
  if w.addr ≠ 0 ∧ w.addr ≤ 7 then do
    let font ← ht1621Tab1[(tab3 w.string).toNat]?
    let temp := font ||| tab2 w.data
    return { (w.wrOneData (w.addr * 2) temp).wrOneData (w.addr * 2 - 1) (temp >>> 4) with
      addr := w.addr + 1, data := w.data + 1, string := w.string + 1 }
  else some w

def highHalf (w : Writer) : Option Writer :=
  if w.addr > 7 ∧ w.addr ≠ 12 then do
    let font ← ht1621Tab1[(tab3 w.string).toNat]?
    let temp := font ||| tab2 w.data
    return { (w.wrOneData (w.addr * 2 - 1) temp).wrOneData (w.addr * 2) (temp >>> 4) with
      addr := w.addr + 1, data := w.data + 1, string := w.string + 1 }
  else some w

def lastIcon (w : Writer) : Writer :=
  if w.addr = 12 then w.wrOneData (w.addr * 2 - 1) (tab2 w.data) else w

def round (w : Writer) : Option Writer := do
  let w ← (w.iconOnly tab2).lowHalf tab2 tab3
  let w ← w.highHalf tab2 tab3
  return w.lastIcon tab2

def rounds : Nat → Writer → Option Writer
  | 0, w => some w
  | cnt + 1, w => do rounds cnt (← w.round tab2 tab3)

end Writer

/-- `Ht1621DisplayState(DIS_BUF,Ht1621Tab3,0,12)`, the one call there is. -/
def ht1621DisplayState (tab2 tab3 : Nat → UInt8) : Option (List (Nat × UInt8)) := do
  let w ← Writer.rounds tab2 tab3 12 ⟨0, 0, 0, []⟩
  return w.written

example : (ht1621DisplayState (fun _ => 0) (fun _ => 0)).isSome = true := by decide

example : ht1621DisplayState (fun _ => 0) (fun e => if e = 10 then 10 else 0) = none := by decide

/-! ## What a refresh shows -/

def active (house : Nat → UInt16) (room : UInt8) : Bool :=
  pm25 house room != 0 || co2 house room != 0

/-- The buffer with a room and its readings. -/
def storeRoom (house : Nat → UInt16) (room : UInt8) (tab : Nat → UInt8) : Nat → UInt8 :=
  storeDigits co2Entries (co2 house room)
    (storeDigits pm25Entries (pm25 house room) (Function.update tab 4 room))

/-- The buffer shows the room, with the digits of its own readings. -/
structure ShowsRoom (house : Nat → UInt16) (room : UInt8) (tab : Nat → UInt8) : Prop where
  number : tab 4 = room
  pm25 : pm25Entries.map tab = digits (pm25 house room)
  co2 : co2Entries.map tab = digits (co2 house room)

theorem showsRoom_storeRoom (house : Nat → UInt16) (room : UInt8) (tab : Nat → UInt8) :
    ShowsRoom house room (storeRoom house room tab) := by
  constructor <;>
    simp [storeRoom, storeDigits, digits, pm25Entries, co2Entries]

theorem storeRoom_timer (house : Nat → UInt16) (room : UInt8) (tab : Nat → UInt8) {e : Nat}
    (he : e = 5 ∨ e = 6) : storeRoom house room tab e = tab e := by
  rcases he with rfl | rfl <;>
    simp [storeRoom, storeDigits, digits, pm25Entries, co2Entries]

theorem high_toNat (v : UInt16) : (v >>> 8).toUInt8.toNat = v.toNat / 256 := by
  have hv := v.toNat_lt
  rw [UInt16.toNat_toUInt8, UInt16.toNat_shiftRight, Nat.shiftRight_eq_div_pow]
  simp
  omega

theorem low_toNat (v : UInt16) : (v &&& 0xff).toUInt8.toNat = v.toNat % 256 := by
  rw [UInt16.toNat_toUInt8, UInt16.toNat_and]
  have h := Nat.and_two_pow_sub_one_eq_mod v.toNat 8
  simp at h ⊢
  omega

theorem tmp16_toNat (high low : UInt8) : (tmp16 high low).toNat = 256 * high.toNat + low.toNat := by
  have hhigh := high.toNat_lt
  have hlow := low.toNat_lt
  rw [tmp16, UInt16.toNat_add, UInt16.toNat_shiftLeft, UInt8.toNat_toUInt16, UInt8.toNat_toUInt16,
    Nat.shiftLeft_eq]
  simp
  omega

theorem tmp16_bytes (v : UInt16) : tmp16 (v >>> 8).toUInt8 (v &&& 0xff).toUInt8 = v := by
  rw [← UInt16.toNat_inj, tmp16_toNat, high_toNat, low_toNat]
  exact Nat.div_add_mod v.toNat 256

theorem bytes_zero (v : UInt16) :
    (v >>> 8).toUInt8 = 0 ∧ (v &&& 0xff).toUInt8 = 0 ↔ v = 0 := by
  constructor
  · rintro ⟨hhigh, hlow⟩
    rw [← tmp16_bytes v, hhigh, hlow]
    rfl
  · rintro rfl
    exact ⟨rfl, rfl⟩

theorem nextHouse_range (h : UInt8) : 1 ≤ nextHouse h ∧ nextHouse h ≤ 5 := by
  unfold nextHouse
  split
  · decide
  · next hlt =>
      simp only [ge_iff_le, UInt8.le_iff_toNat_le] at *
      simp at *
      omega

theorem orbit_le {n : Nat} {h room : UInt8} (hroom : room ∈ orbit nextHouse n h) : room ≤ 5 := by
  obtain ⟨m, -, rfl⟩ := List.mem_iterate.mp hroom
  rw [← Function.iterate_succ_apply, Function.iterate_succ_apply']
  exact (nextHouse_range _).2

namespace RoomShow

variable (house : Nat → UInt16) (s : RoomShow)

/-- The four bytes that a look leaves in `mybuff`. -/
theorem look_mybuff : (s.look house).mybuff 0 = (pm25 house (nextHouse s.houseId) >>> 8).toUInt8 ∧
    (s.look house).mybuff 1 = (pm25 house (nextHouse s.houseId) &&& 0xff).toUInt8 ∧
    (s.look house).mybuff 2 = (co2 house (nextHouse s.houseId) >>> 8).toUInt8 ∧
    (s.look house).mybuff 3 = (co2 house (nextHouse s.houseId) &&& 0xff).toUInt8 := by
  simp [look, takeRoom, nextHouse_range]

theorem look_empty : (s.look house).empty = !active house (nextHouse s.houseId) := by
  obtain ⟨h0, h1, h2, h3⟩ := s.look_mybuff house
  have hpm := bytes_zero (pm25 house (nextHouse s.houseId))
  have hco := bytes_zero (co2 house (nextHouse s.houseId))
  rw [Bool.eq_iff_iff, empty, active, h0, h1, h2, h3]
  simp only [Bool.and_eq_true, beq_iff_eq, Bool.not_eq_true', Bool.or_eq_false_iff,
    bne_eq_false_iff_eq]
  rw [and_assoc, hco, hpm]

theorem look_store : (s.look house).store =
    { s.look house with
      ht1621Tab3 := storeRoom house (nextHouse s.houseId) s.ht1621Tab3 } := by
  obtain ⟨h0, h1, h2, h3⟩ := s.look_mybuff house
  rw [store, h0, h1, h2, h3, tmp16_bytes, tmp16_bytes]
  rfl

theorem storeRoom_look (room : UInt8) : storeRoom house room (s.look house).ht1621Tab3 =
    storeRoom house room s.ht1621Tab3 := by
  simp [storeRoom, look]

/-- The search ends at the first of the rooms ahead that is active. -/
theorem search_found {n : Nat} {room : UInt8}
    (h : (orbit nextHouse n s.houseId).find? (active house) = some room) :
    (s.search house n).houseId = room ∧
      (s.search house n).ht1621Tab3 = storeRoom house room s.ht1621Tab3 := by
  induction n generalizing s with
  | zero => exact absurd h (by simp [orbit])
  | succ n ih =>
    rw [orbit, List.iterate, List.find?_cons] at h
    rw [search, look_empty]
    cases hactive : active house (nextHouse s.houseId) with
    | true =>
      rw [hactive] at h
      obtain rfl := Option.some.inj h
      rw [if_neg (by simp), look_store]
      exact ⟨rfl, rfl⟩
    | false =>
      rw [hactive] at h
      rw [if_pos (by simp), ← storeRoom_look]
      exact ih (s.look house) h

/-- With no active room ahead only the room number has moved on. -/
theorem search_none {n : Nat} (h : (orbit nextHouse n s.houseId).find? (active house) = none) :
    (s.search house n).houseId = nextHouse^[n] s.houseId ∧
      (s.ht1621Tab3 4 = s.houseId → (s.search house n).ht1621Tab3 =
        Function.update s.ht1621Tab3 4 (nextHouse^[n] s.houseId)) := by
  induction n generalizing s with
  | zero =>
    refine ⟨rfl, fun hshown => ?_⟩
    rw [Function.iterate_zero, id, ← hshown, Function.update_eq_self]
    rfl
  | succ n ih =>
    rw [orbit, List.iterate, List.find?_cons] at h
    rw [search, look_empty]
    cases hactive : active house (nextHouse s.houseId) with
    | true =>
      rw [hactive] at h
      exact absurd h (by simp)
    | false =>
      rw [hactive] at h
      obtain ⟨hid, htab⟩ := ih (s.look house) h
      rw [if_pos (by simp)]
      refine ⟨hid, fun _ => ?_⟩
      rw [htab (by simp [look])]
      simp [look]

theorem search_timer (n : Nat) {e : Nat} (he : e = 5 ∨ e = 6) :
    (s.search house n).ht1621Tab3 e = s.ht1621Tab3 e := by
  have h4 : e ≠ 4 := by omega
  induction n generalizing s with
  | zero => rfl
  | succ n ih =>
    rw [search]
    split
    · rw [ih (s.look house)]
      exact Function.update_of_ne h4 _ _
    · rw [look_store]
      exact storeRoom_timer house _ _ he

end RoomShow

/-! ## The rotation -/

def rooms : List UInt8 := [1, 2, 3, 4, 5]

def activeRooms (house : Nat → UInt16) : List UInt8 := rooms.filter (active house)

theorem mem_rooms {h : UInt8} : h ∈ rooms ↔ 1 ≤ h ∧ h ≤ 5 := by
  simp only [rooms, List.mem_cons, List.not_mem_nil, or_false, ← UInt8.toNat_inj,
    UInt8.le_iff_toNat_le]
  simp
  omega

/-- What holds of each of the five rooms. -/
theorem of_rooms {p : UInt8 → Prop} (h1 : p 1) (h2 : p 2) (h3 : p 3) (h4 : p 4) (h5 : p 5)
    {h : UInt8} (hid : h ∈ rooms) : p h := by
  simp only [rooms, List.mem_cons, List.not_mem_nil, or_false] at hid
  rcases hid with rfl | rfl | rfl | rfl | rfl <;> assumption

theorem nextHouse_cycle {h : UInt8} (hid : h ∈ rooms) : nextHouse^[5] h = h :=
  of_rooms (p := fun h => nextHouse^[5] h = h) (by decide) (by decide) (by decide) (by decide)
    (by decide) hid

/-- The rooms ahead are the five rooms, beginning with the next one. -/
theorem orbit_perm {h : UInt8} (hid : h ∈ rooms) : (orbit nextHouse 5 h).Perm rooms :=
  of_rooms (p := fun h => (orbit nextHouse 5 h).Perm rooms) (by decide) (by decide) (by decide)
    (by decide) (by decide) hid

theorem active_ahead {house : Nat → UInt16} {h : UInt8} (hid : h ∈ rooms) :
    ((orbit nextHouse 5 h).filter (active house)).Perm (activeRooms house) :=
  (orbit_perm hid).filter _

namespace RoomShow

/-- What the rest of the main loop may do between two refreshes: it writes the
timer digits, no others. -/
structure Idle (s s' : RoomShow) : Prop where
  houseId : s'.houseId = s.houseId
  mybuff : s'.mybuff = s.mybuff
  ht1621Tab3 : ∀ e, e ≠ 5 → e ≠ 6 → s'.ht1621Tab3 e = s.ht1621Tab3 e

/-- The states right after each of the successive refreshes. -/
def Refreshes (house : Nat → UInt16) : RoomShow → List RoomShow → Prop
  | _, [] => True
  | s, t :: ts => (∃ s', s.Idle s' ∧ t = s'.refresh house) ∧ Refreshes house t ts

variable {house : Nat → UInt16} {s : RoomShow}

theorem refresh_turn (hid : s.houseId ∈ rooms) :
    (s.refresh house).houseId = turn nextHouse 5 (active house) s.houseId := by
  cases hfind : (orbit nextHouse 5 s.houseId).find? (active house) with
  | some room => rw [turn_eq hfind, refresh, (s.search_found house hfind).1]
  | none =>
    rw [turn, hfind, refresh, (s.search_none house hfind).1, nextHouse_cycle hid]
    rfl

theorem refresh_rooms (hid : s.houseId ∈ rooms) : (s.refresh house).houseId ∈ rooms := by
  rw [refresh_turn hid, turn]
  cases hfind : (orbit nextHouse 5 s.houseId).find? (active house) with
  | some room => exact (orbit_perm hid).mem_iff.mp (List.mem_of_find?_eq_some hfind)
  | none => exact hid

theorem refreshes_turns {ts : List RoomShow} (hid : s.houseId ∈ rooms)
    (h : s.Refreshes house ts) :
    ts.map houseId = orbit (turn nextHouse 5 (active house)) ts.length s.houseId := by
  induction ts generalizing s with
  | nil => rfl
  | cons t ts ih =>
    obtain ⟨⟨s', hidle, rfl⟩, hrest⟩ := h
    have hid' : s'.houseId ∈ rooms := by rwa [hidle.houseId]
    rw [List.map_cons, ih (refresh_rooms hid') hrest, refresh_turn hid', hidle.houseId]
    rfl

/-- With an active room every refresh shows one, with its own readings. -/
theorem refresh_shows (hid : s.houseId ∈ rooms) (hactive : 1 ≤ (activeRooms house).length) :
    ShowsRoom house (s.refresh house).houseId (s.refresh house).ht1621Tab3 := by
  have hahead : ((orbit nextHouse 5 s.houseId).filter (active house)).Perm (activeRooms house) :=
    active_ahead hid
  obtain ⟨room, hfind⟩ := exists_turn (hahead.length_eq ▸ hactive)
  obtain ⟨hroom, htab⟩ := s.search_found house hfind
  rw [refresh, hroom, htab]
  exact showsRoom_storeRoom house room _

theorem refreshes_show {ts : List RoomShow} (hid : s.houseId ∈ rooms)
    (hactive : 1 ≤ (activeRooms house).length) (h : s.Refreshes house ts) :
    ∀ t ∈ ts, ShowsRoom house t.houseId t.ht1621Tab3 := by
  induction ts generalizing s with
  | nil => simp
  | cons t ts ih =>
    obtain ⟨⟨s', hidle, rfl⟩, hrest⟩ := h
    have hid' : s'.houseId ∈ rooms := by rwa [hidle.houseId]
    rw [List.forall_mem_cons]
    exact ⟨refresh_shows hid' hactive, ih (refresh_rooms hid') hrest⟩

end RoomShow

theorem rotation_fair (house : Nat → UInt16) (s : RoomShow)
    (hid : 1 ≤ s.houseId ∧ s.houseId ≤ 5) (hshown : s.ht1621Tab3 4 = s.houseId) :
    (∀ room, (orbit nextHouse 5 s.houseId).find? (active house) = some room →
      (s.refresh house).houseId = room ∧ ShowsRoom house room (s.refresh house).ht1621Tab3) ∧
    (1 ≤ (activeRooms house).length → ∀ ts, s.Refreshes house ts →
      ts.length = (activeRooms house).length →
      (ts.map RoomShow.houseId).Perm (activeRooms house) ∧
      ∀ t ∈ ts, ShowsRoom house t.houseId t.ht1621Tab3) ∧
    (activeRooms house = [] → (s.refresh house).houseId = s.houseId ∧
      (s.refresh house).ht1621Tab3 = s.ht1621Tab3) := by
  rw [← mem_rooms] at hid
  have hahead : ((orbit nextHouse 5 s.houseId).filter (active house)).Perm (activeRooms house) :=
    active_ahead hid
  refine ⟨?_, ?_, ?_⟩
  · intro room hfind
    obtain ⟨hroom, htab⟩ := s.search_found house hfind
    rw [RoomShow.refresh, hroom, htab]
    exact ⟨rfl, showsRoom_storeRoom house room _⟩
  · intro hactive ts hts hlen
    refine ⟨?_, RoomShow.refreshes_show hid hactive hts⟩
    rw [RoomShow.refreshes_turns hid hts, hlen, ← hahead.length_eq,
      orbit_turn (nextHouse_cycle hid)]
    exact hahead
  · intro hnone
    have hfind : (orbit nextHouse 5 s.houseId).find? (active house) = none := by
      rw [hnone, List.perm_nil, List.filter_eq_nil_iff] at hahead
      rw [List.find?_eq_none]
      exact hahead
    obtain ⟨hroom, htab⟩ := s.search_none house hfind
    rw [RoomShow.refresh, hroom, htab hshown, nextHouse_cycle hid]
    refine ⟨rfl, ?_⟩
    rw [← hshown, Function.update_eq_self]

/-- Rooms 2 and 4 have a reading, and room 4 is shown. -/
def twoRooms : Nat → UInt16 := fun j => if j = 2 then 35 else if j = 7 then 600 else 0

def fourShown : RoomShow := ⟨4, fun _ => 0, fun e => if e = 4 then 4 else 0⟩

theorem rotation_fair_two :
    (fourShown.refresh twoRooms).houseId = 2 ∧
      ([fourShown.refresh twoRooms, (fourShown.refresh twoRooms).refresh twoRooms].map
        RoomShow.houseId).Perm (activeRooms twoRooms) := by
  obtain ⟨hnext, hround, -⟩ := rotation_fair twoRooms fourShown (by decide) rfl
  refine ⟨(hnext 2 (by decide)).1, (hround (by decide) _ ?_ rfl).1⟩
  exact ⟨⟨_, ⟨rfl, rfl, fun _ _ _ => rfl⟩, rfl⟩, ⟨_, ⟨rfl, rfl, fun _ _ _ => rfl⟩, rfl⟩, trivial⟩

/-! ## Valid digits -/

/-- The digits, read in their order. -/
def recompose (ds : List UInt8) : Nat := ds.foldl (fun n d => 10 * n + d.toNat) 0

theorem digits_toNat (v : UInt16) : (digits v).map UInt8.toNat =
    [v.toNat / 1000, v.toNat % 1000 / 100, v.toNat % 1000 % 100 / 10,
      v.toNat % 1000 % 100 % 10] := by
  have hv := v.toNat_lt
  simp only [digits, List.map_cons, List.map_nil, UInt16.toNat_toUInt8, UInt16.toNat_div,
    UInt16.toNat_mod]
  simp
  omega

theorem recompose_digits (v : UInt16) : recompose (digits v) = v.toNat := by
  have h : recompose (digits v) =
      ((digits v).map UInt8.toNat).foldl (fun n d => 10 * n + d) 0 := by
    rw [recompose, List.foldl_map]
  rw [h, digits_toNat]
  simp only [List.foldl_cons, List.foldl_nil]
  omega

theorem digits_valid_iff (v : UInt16) : (∀ d ∈ digits v, d ≤ 9) ↔ v ≤ 9999 := by
  have h : (∀ d ∈ digits v, d ≤ 9) ↔ ∀ n ∈ (digits v).map UInt8.toNat, n ≤ 9 := by
    simp [UInt8.le_iff_toNat_le]
  rw [h, digits_toNat, UInt16.le_iff_toNat_le]
  simp
  omega

/-- Between rounds the string pointer is one behind the address, but for the
start. -/
structure Writer.InStep (w : Writer) : Prop where
  addr : w.addr ≤ 12
  string : w.addr = 0 ∧ w.string = 0 ∨ w.string + 1 = w.addr

section

variable {tab3 : Nat → UInt8} (tab2 : Nat → UInt8)

theorem font_lookup (h : ∀ e ≤ 10, tab3 e ≤ 9) {e : Nat} (he : e ≤ 10) :
    ∃ font, ht1621Tab1[(tab3 e).toNat]? = some font := by
  have hle := UInt8.le_iff_toNat_le.mp (h e he)
  have hlt : (tab3 e).toNat < ht1621Tab1.length := by
    show (tab3 e).toNat < 10
    simp at hle
    omega
  exact ⟨_, List.getElem?_eq_getElem hlt⟩

theorem iconOnly_inStep {w : Writer} (h : w.InStep) :
    (w.iconOnly tab2).addr ≤ 12 ∧ (w.iconOnly tab2).string + 1 = (w.iconOnly tab2).addr := by
  obtain ⟨haddr, hstring⟩ := h
  unfold Writer.iconOnly
  split
  · next h0 =>
      simp only [Writer.wrOneData]
      omega
  · omega

theorem lowHalf_inStep (h : ∀ e ≤ 10, tab3 e ≤ 9) {w : Writer} (haddr : w.addr ≤ 12)
    (hstring : w.string + 1 = w.addr) :
    ∃ w', w.lowHalf tab2 tab3 = some w' ∧ w'.addr ≤ 12 ∧ w'.string + 1 = w'.addr := by
  unfold Writer.lowHalf
  split
  · next hlow =>
      obtain ⟨font, hfont⟩ := font_lookup h (e := w.string) (by omega)
      rw [hfont]
      exact ⟨_, rfl, by simp only; omega, by simp only; omega⟩
  · exact ⟨w, rfl, haddr, hstring⟩

theorem highHalf_inStep (h : ∀ e ≤ 10, tab3 e ≤ 9) {w : Writer} (haddr : w.addr ≤ 12)
    (hstring : w.string + 1 = w.addr) :
    ∃ w', w.highHalf tab2 tab3 = some w' ∧ w'.addr ≤ 12 ∧ w'.string + 1 = w'.addr := by
  unfold Writer.highHalf
  split
  · next hhigh =>
      obtain ⟨font, hfont⟩ := font_lookup h (e := w.string) (by omega)
      rw [hfont]
      exact ⟨_, rfl, by simp only; omega, by simp only; omega⟩
  · exact ⟨w, rfl, haddr, hstring⟩

theorem round_inStep (h : ∀ e ≤ 10, tab3 e ≤ 9) {w : Writer} (hw : w.InStep) :
    ∃ w', w.round tab2 tab3 = some w' ∧ w'.InStep := by
  obtain ⟨haddr, hstring⟩ := iconOnly_inStep tab2 hw
  obtain ⟨low, hlow, hlowAddr, hlowString⟩ := lowHalf_inStep tab2 h haddr hstring
  obtain ⟨high, hhigh, hhighAddr, hhighString⟩ := highHalf_inStep tab2 h hlowAddr hlowString
  refine ⟨high.lastIcon tab2, ?_, ?_⟩
  · rw [Writer.round, hlow, Option.bind_eq_bind, Option.bind_some, hhigh]
    rfl
  · unfold Writer.lastIcon
    split
    · exact ⟨hhighAddr, Or.inr hhighString⟩
    · exact ⟨hhighAddr, Or.inr hhighString⟩

/-- With digits in all its entries the writer stays within the font, however
many rounds it makes. -/
theorem rounds_inStep (h : ∀ e ≤ 10, tab3 e ≤ 9) (cnt : Nat) {w : Writer} (hw : w.InStep) :
    (Writer.rounds tab2 tab3 cnt w).isSome = true := by
  induction cnt generalizing w with
  | zero => rfl
  | succ cnt ih =>
    obtain ⟨w', hround, hw'⟩ := round_inStep tab2 h hw
    rw [Writer.rounds, hround, Option.bind_eq_bind, Option.bind_some]
    exact ih hw'

theorem displayState_isSome (h : ∀ e ≤ 10, tab3 e ≤ 9) :
    (ht1621DisplayState tab2 tab3).isSome = true := by
  obtain ⟨w, hw⟩ := Option.isSome_iff_exists.mp
    (rounds_inStep tab2 h 12 (w := ⟨0, 0, 0, []⟩) ⟨by decide, Or.inl ⟨rfl, rfl⟩⟩)
  rw [ht1621DisplayState, hw]
  rfl

end

/-! ## The main loop -/

/-- The display with what its main loop keeps for itself. -/
structure MainLoop where
  disp : Disp
  houseId : UInt8
  mybuff : Nat → UInt8

def MainLoop.roomShow (m : MainLoop) : RoomShow := ⟨m.houseId, m.mybuff, m.disp.screen.ht1621Tab3⟩

def MainLoop.withRoom (m : MainLoop) (s : RoomShow) : MainLoop :=
  { disp := { m.disp with screen := { m.disp.screen with ht1621Tab3 := s.ht1621Tab3 } }
    houseId := s.houseId
    mybuff := s.mybuff }

def MainLoop.refresh (m : MainLoop) : MainLoop := m.withRoom (m.roomShow.refresh m.disp.house)

/-- The states the main loop gets into. What `mybuff` holds at first is
anything, and the refresh may come at any time. -/
inductive MainLoop.Reachable : MainLoop → Prop where
  | start (mybuff : Nat → UInt8) : Reachable ⟨Disp.reset, 0, mybuff⟩
  | press {m : MainLoop} (k : Key) : Reachable m → Reachable { m with disp := m.disp.press k }
  | scan {m : MainLoop} : Reachable m → Reachable { m with disp := m.disp.onoffScan }
  | check {m : MainLoop} : Reachable m → Reachable { m with disp := m.disp.cmdUartCheck }
  | refresh {m : MainLoop} : Reachable m → Reachable m.refresh
  | receive {m : MainLoop} (udr1 : UInt8) : Reachable m →
      Reachable { m with disp := { m.disp with rx := m.disp.rx.serialInt1Receive udr1 } }
  | send {m : MainLoop} : Reachable m →
      Reachable { m with disp := { m.disp with tx := m.disp.tx.serialInt1Send.2 } }
  | tick {m : MainLoop} (timeTickCnt1 : UInt32) : Reachable m →
      Reachable { m with disp := { m.disp with timeTickCnt1 := timeTickCnt1 } }

/-! ### The timer digits -/

/-- Shown or held, the timer consists of digits. -/
structure Screen.TimerDigits (sc : Screen) : Prop where
  shown : sc.ht1621Tab3 5 ≤ 9 ∧ sc.ht1621Tab3 6 ≤ 9
  held : sc.count3 ≤ 9 ∧ sc.count2 ≤ 9

theorem Screen.SameTimer.timerDigits {sc sc' : Screen} (h : sc.SameTimer sc')
    (hsc : sc.TimerDigits) : sc'.TimerDigits := by
  obtain ⟨htab, hlo, hhi⟩ := h
  exact ⟨by rw [htab]; exact hsc.shown, by rw [hhi, hlo]; exact hsc.held⟩

theorem timerDigits_showTimer {sc : Screen} {hi lo : UInt8} (h : sc.TimerDigits) (hhi : hi ≤ 9)
    (hlo : lo ≤ 9) : (sc.showTimer hi lo).TimerDigits := by
  refine ⟨?_, hhi, hlo⟩
  simpa [Screen.showTimer] using h.held

/-- The keys that set the timer show what they hold. -/
theorem timerDigits_set {sc : Screen} {hi lo : UInt8} (h : hi ≤ 9 ∧ lo ≤ 9) :
    ({ sc with
      count2 := lo
      count3 := hi
      ht1621Tab3 := Function.update (Function.update sc.ht1621Tab3 5 hi) 6 lo } :
        Screen).TimerDigits := by
  refine ⟨?_, h⟩
  simpa using h

namespace Disp

theorem timerDigits_checkPower (v : UInt8) {d : Disp} (h : d.screen.TimerDigits) :
    (d.checkPower v).screen.TimerDigits := by
  by_cases hv : v = 0
  · rw [hv, (checkPower_off d).1]
    exact timerDigits_showTimer h (by decide) (by decide)
  · exact (KeepsTimer.power_on hv d).1.timerDigits h

theorem timerDigits_checkTiming (v : UInt8) {d : Disp} (h : d.screen.TimerDigits) :
    (d.checkTiming v).screen.TimerDigits := by
  unfold checkTiming
  split
  · next hv =>
      have h12 := UInt8.le_iff_toNat_le.mp hv.2
      refine timerDigits_showTimer h ?_ ?_ <;>
        · rw [UInt8.le_iff_toNat_le]
          simp at h12 ⊢
          omega
  · exact h

theorem timerDigits_deviceWorkModeCheck {d : Disp} (h : d.screen.TimerDigits) :
    d.deviceWorkModeCheck.screen.TimerDigits := by
  refine timerDigits_checkTiming _ ?_
  have hkeeps := KeepsTimer.switches d.work (d.checkPower d.work.devicePowerState)
  exact hkeeps.1.timerDigits (timerDigits_checkPower _ h)

theorem timerDigits_cmdUartCheck {d : Disp} (h : d.screen.TimerDigits) :
    d.cmdUartCheck.screen.TimerDigits := by
  rw [cmdUartCheck]
  split
  · exact h
  · dsimp only
    have hf1 : (if d.rx.inComBuff 0 = 0xF1 ∧ d.rx.inComBuff 1 = 0xF1 then
        ({ d with
          rx := d.rx.takeFrame
          work := f1Switch (d.rx.inComBuff 2) (d.rx.inComBuff 4)
            d.work }).deviceWorkModeCheck.answerF1
        else { d with rx := d.rx.takeFrame }).screen.TimerDigits := by
      split
      · exact (KeepsTimer.answerF1 _).1.timerDigits (timerDigits_deviceWorkModeCheck (by exact h))
      · exact h
    split
    · exact (KeepsTimer.faultCheck _).1.timerDigits (timerDigits_deviceWorkModeCheck (by exact hf1))
    · exact hf1

theorem timerDigits_onoffScan {d : Disp} (h : d.screen.TimerDigits) :
    d.onoffScan.screen.TimerDigits := by
  unfold onoffScan
  split
  · exact (Screen.SameTimer.display _ _).timerDigits h
  · exact h

theorem timerDigits_press (k : Key) {d : Disp} (h : d.screen.TimerDigits) :
    (d.press k).screen.TimerDigits := by
  cases k with
  | power => exact h
  | mode =>
    have hsame : d.mainSwitchKey.screen = d.screen := by
      unfold mainSwitchKey
      repeat' split
      all_goals rfl
    rw [press, hsame]
    exact h
  | modeLong =>
    have hsame : d.screen.SameTimer d.mainSwitchKeyLong.screen := by
      unfold mainSwitchKeyLong
      split <;> exact ⟨rfl, rfl, rfl⟩
    exact hsame.timerDigits h
  | esd =>
    obtain ⟨hhi, hlo⟩ := h.held
    rw [press, esdKey]
    split
    · exact h
    · split
      · refine timerDigits_set ?_
        grind
      · split <;> exact h
  | pht =>
    obtain ⟨hhi, hlo⟩ := h.held
    rw [press, phtKey]
    split
    · exact h
    · split
      · refine timerDigits_set ?_
        grind
      · split <;> exact h
  | wind =>
    have hsame : d.windKey.screen = d.screen := by
      unfold windKey
      split <;> rfl
    rw [press, hsame]
    exact h

end Disp

theorem MainLoop.Reachable.timerDigits {m : MainLoop} (h : m.Reachable) :
    m.disp.screen.TimerDigits := by
  induction h with
  | start mybuff =>
    show Disp.reset.screen.TimerDigits
    exact ⟨⟨by decide, by decide⟩, by decide, by decide⟩
  | press k _ ih => exact Disp.timerDigits_press k ih
  | scan _ ih => exact Disp.timerDigits_onoffScan ih
  | check _ ih => exact Disp.timerDigits_cmdUartCheck ih
  | @refresh m _ ih =>
    refine ⟨?_, ih.held⟩
    have hkept : ∀ e, e = 5 ∨ e = 6 →
        m.refresh.disp.screen.ht1621Tab3 e = m.disp.screen.ht1621Tab3 e := fun e he =>
      m.roomShow.search_timer m.disp.house 5 he
    rw [hkept 5 (Or.inl rfl), hkept 6 (Or.inr rfl)]
    exact ih.shown
  | receive _ _ ih => exact ih
  | send _ ih => exact ih
  | tick _ _ ih => exact ih

/-! ## Readings in the buffer -/

/-- What the readings of a room come to on the screen. -/
structure Displayed (house : Nat → UInt16) (room : UInt8) (sc : Screen) : Prop where
  digits : ∀ e ∈ pm25Entries ++ co2Entries, sc.ht1621Tab3 e ≤ 9
  font : (ht1621DisplayState sc.ht1621Tab2 sc.ht1621Tab3).isSome = true
  pm25 : pm25 house room ≤ 9999 →
    recompose (pm25Entries.map sc.ht1621Tab3) = (pm25 house room).toNat
  co2 : co2 house room ≤ 9999 → recompose (co2Entries.map sc.ht1621Tab3) = (co2 house room).toNat

theorem showsRoom_digits {house : Nat → UInt16} {room : UInt8} {tab : Nat → UInt8}
    (h : ShowsRoom house room tab) : (∀ e ∈ pm25Entries ++ co2Entries, tab e ≤ 9) ↔
      pm25 house room ≤ 9999 ∧ co2 house room ≤ 9999 := by
  rw [← digits_valid_iff, ← digits_valid_iff, ← h.pm25, ← h.co2, List.forall_mem_append]
  simp only [List.forall_mem_map]

theorem MainLoop.refresh_showsRoom (m : MainLoop) {room : UInt8}
    (hroom : (orbit nextHouse 5 m.houseId).find? (active m.disp.house) = some room) :
    ShowsRoom m.disp.house room m.refresh.disp.screen.ht1621Tab3 := by
  have htab := (m.roomShow.search_found m.disp.house hroom).2
  show ShowsRoom m.disp.house room (m.roomShow.search m.disp.house 5).ht1621Tab3
  rw [htab]
  exact showsRoom_storeRoom m.disp.house room _

theorem readings_displayed_iff {m : MainLoop} (h : m.Reachable) {room : UInt8}
    (hroom : (orbit nextHouse 5 m.houseId).find? (active m.disp.house) = some room) :
    Displayed m.disp.house room m.refresh.disp.screen ↔
      pm25 m.disp.house room ≤ 9999 ∧ co2 m.disp.house room ≤ 9999 := by
  have hshows := m.refresh_showsRoom hroom
  rw [← showsRoom_digits hshows]
  refine ⟨Displayed.digits, fun hdigits => ⟨hdigits, ?_, fun _ => ?_, fun _ => ?_⟩⟩
  · refine displayState_isSome _ fun e he => ?_
    have htimer := h.refresh.timerDigits.shown
    have hnumber : m.refresh.disp.screen.ht1621Tab3 4 ≤ 9 := by
      rw [hshows.number]
      exact UInt8.le_trans (orbit_le (List.mem_of_find?_eq_some hroom)) (by decide)
    by_cases he4 : e = 4
    · rw [he4]
      exact hnumber
    by_cases he5 : e = 5
    · rw [he5]
      exact htimer.1
    by_cases he6 : e = 6
    · rw [he6]
      exact htimer.2
    refine hdigits e ?_
    simp only [pm25Entries, co2Entries, List.mem_append, List.mem_cons, List.not_mem_nil, or_false]
    omega
  · rw [hshows.pm25, recompose_digits]
  · rw [hshows.co2, recompose_digits]

/-- A state frame with 10000 for the PM2.5 of room 1. -/
def highFrame : List UInt8 :=
  0xF2 :: 0xF2 :: ([1, 0x1B, 1, 0, 0, 0, 0, 0, 0x27, 0x10] ++ List.replicate 18 0 ++
    [0, 0x54, 0x7E])

/-- The display after it. -/
def highReading : MainLoop := ⟨Disp.reset.handle highFrame, 0, fun _ => 0⟩

theorem MainLoop.Reachable.feed (bs : List UInt8) {m : MainLoop} (h : m.Reachable) :
    MainLoop.Reachable { m with disp := { m.disp with rx := m.disp.rx.feed bs } } := by
  induction bs generalizing m with
  | nil => exact h
  | cons b bs ih => exact ih (h.receive b)

theorem highReading_reachable : highReading.Reachable :=
  ((MainLoop.Reachable.start fun _ => 0).feed highFrame).check

theorem highReading_house : pm25 highReading.disp.house 1 = 10000 := by decide

theorem highReading_room :
    (orbit nextHouse 5 highReading.houseId).find? (active highReading.disp.house) = some 1 := by
  decide

theorem readings_displayed_iff_high :
    Displayed highReading.disp.house 1 highReading.refresh.disp.screen ↔
      pm25 highReading.disp.house 1 ≤ 9999 ∧ co2 highReading.disp.house 1 ≤ 9999 :=
  readings_displayed_iff highReading_reachable highReading_room

theorem readings_displayed_counterexample :
    ¬ ∀ m : MainLoop, m.Reachable → ∀ room,
      (orbit nextHouse 5 m.houseId).find? (active m.disp.house) = some room →
        Displayed m.disp.house room m.refresh.disp.screen := by
  intro h
  have hhigh := h highReading highReading_reachable 1 highReading_room
  have hpm := ((showsRoom_digits (highReading.refresh_showsRoom highReading_room)).mp
    hhigh.digits).1
  rw [highReading_house] at hpm
  exact absurd hpm (by decide)

end Aclean
