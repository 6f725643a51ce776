import Stm32Board.Gui.Area
import Stm32Board.Common.Canvas
import Mathlib.Algebra.GroupWithZero.Nat
import Mathlib.Algebra.Order.BigOperators.Group.List

/-!
# Invalid areas

`lv_inv_area` keeps a table of at most 32 areas of the screen, and falls back to the whole screen when
it is full; the refresh task first joins areas of the table where that leaves less to draw. Whatever
was marked stays covered by the areas that are drawn (`lvInvArea_covers`, `lvRefrJoinArea_covers`), and
joining never makes more to draw (`lvRefrJoinArea_load`).
-/

namespace Stm32Board.Gui

open Common Lcd

variable {lcddev : LcdDev}

/-- The pixels of the panel. -/
def screen (lcddev : LcdDev) : Set Pixel := {p | p.1 < lcddev.width.toNat ∧ p.2 < lcddev.height.toNat}

/-- The pixels of the areas that are to be drawn. -/
def invalid (inv : List InvArea) : Set Pixel :=
  {p | ∃ e ∈ inv, e.joined = false ∧ e.area.Contains p}

/-- What the table holds between refreshes. -/
structure Marked (lcddev : LcdDev) (inv : List InvArea) : Prop where
  length_le : inv.length ≤ lvInvBufSize
  inside : ∀ e ∈ inv, e.area.Inside lcddev
  unjoined : ∀ e ∈ inv, e.joined = false

theorem Marked.nil : Marked lcddev [] :=
  ⟨Nat.zero_le _, fun _ h => absurd h List.not_mem_nil, fun _ h => absurd h List.not_mem_nil⟩

/-! ## Marking -/

section Marking

variable {disp : LvDisp} (hd : Attached lcddev disp)
include hd

/-- The corner of the screen. -/
theorem scrArea_edges :
    disp.scrArea.x1.toInt = 0 ∧ disp.scrArea.y1.toInt = 0 ∧
      disp.scrArea.x2.toInt = lcddev.width.toNat - 1 ∧
      disp.scrArea.y2.toInt = lcddev.height.toNat - 1 := by
  have hpos := hd.horRes_pos
  have hpos' := hd.verRes_pos
  have hhor := disp.horRes.toInt_lt
  have hver := disp.verRes.toInt_lt
  have hx2 : (disp.horRes - 1).toInt = lcddev.width.toNat - 1 := by
    rw [Int16.toInt_sub, Int16.toInt_one, hd.horRes_eq]
    rw [hd.horRes_eq] at hhor
    exact Int.bmod_eq_of_le (by omega) (by omega)
  have hy2 : (disp.verRes - 1).toInt = lcddev.height.toNat - 1 := by
    rw [Int16.toInt_sub, Int16.toInt_one, hd.verRes_eq]
    rw [hd.verRes_eq] at hver
    exact Int.bmod_eq_of_le (by omega) (by omega)
  exact ⟨rfl, rfl, hx2, hy2⟩

/-- The area of the display is the screen. -/
theorem scrArea_contains {p : Pixel} : disp.scrArea.Contains p ↔ p ∈ screen lcddev := by
  obtain ⟨hx1, hy1, hx2, hy2⟩ := scrArea_edges hd
  have hpos := hd.horRes_pos
  have hpos' := hd.verRes_pos
  rw [LvArea.Contains, hx1, hy1, hx2, hy2]
  show _ ↔ p.1 < lcddev.width.toNat ∧ p.2 < lcddev.height.toNat
  omega

/-- An area cut to the screen, when something is left of it. -/
theorem inside_lvAreaIntersect {area : LvArea} (h : (lvAreaIntersect area disp.scrArea).2 = true) :
    (lvAreaIntersect area disp.scrArea).1.Inside lcddev := by
  obtain ⟨hx1, hy1, hx2, hy2⟩ := scrArea_edges hd
  obtain ⟨hx, hy⟩ := lvAreaIntersect_ok.mp h
  simp only [lvAreaIntersect, toInt_lvMathMax, toInt_lvMathMin] at hx hy
  constructor <;> simp only [lvAreaIntersect, toInt_lvMathMax, toInt_lvMathMin] <;> omega

/-- It is inside the screen. -/
theorem inside_scrArea : disp.scrArea.Inside lcddev := by
  obtain ⟨hx1, hy1, hx2, hy2⟩ := scrArea_edges hd
  have hpos := hd.horRes_pos
  have hpos' := hd.verRes_pos
  constructor <;> omega

/-- The three outcomes of `lv_inv_area`: nothing new to mark, a new entry, the whole screen. -/
theorem lvInvArea_cases (area : LvArea) :
    lvInvArea disp (some area) = disp ∧
        (∀ p ∈ screen lcddev, area.Contains p → ∃ e ∈ disp.inv, e.area.Contains p) ∨
      (∃ com : LvArea, com.Inside lcddev ∧ disp.inv.length < lvInvBufSize ∧
        (∀ p, com.Contains p ↔ area.Contains p ∧ p ∈ screen lcddev) ∧
        lvInvArea disp (some area) = { disp with inv := disp.inv ++ [⟨com, false⟩] }) ∨
      lvInvArea disp (some area) =
        { disp with inv := [⟨disp.scrArea, (disp.inv.head?.map InvArea.joined).getD false⟩] } := by
  have hcom : ∀ p, (lvAreaIntersect area disp.scrArea).1.Contains p ↔
      area.Contains p ∧ p ∈ screen lcddev := fun p => by
    rw [contains_lvAreaIntersect, scrArea_contains hd]
  unfold lvInvArea
  dsimp only
  split
  · next hok =>
    split
    · next hany =>
      obtain ⟨e, he, hin⟩ := List.any_eq_true.mp hany
      exact .inl ⟨rfl, fun p hp hp' => ⟨e, he, contains_of_lvAreaIsIn hin ((hcom p).mpr ⟨hp', hp⟩)⟩⟩
    · split
      · next hlen =>
        exact .inr (.inl ⟨_, inside_lvAreaIntersect hd hok, hlen, hcom, rfl⟩)
      · exact .inr (.inr rfl)
  · next hok =>
    refine .inl ⟨rfl, fun p hp hp' => absurd ?_ hok⟩
    exact lvAreaIntersect_ok_of_contains hp' ((scrArea_contains hd).mpr hp)

/-- What a call of `lv_inv_area` keeps and adds: the display is the same, the table is well formed,
and all that was marked or is marked now is covered. -/
theorem lvInvArea_covers (hm : Marked lcddev disp.inv) (area : LvArea) :
    Attached lcddev (lvInvArea disp (some area)) ∧ Marked lcddev (lvInvArea disp (some area)).inv ∧
      (invalid disp.inv ∪ pixels area) ∩ screen lcddev ⊆
        invalid (lvInvArea disp (some area)).inv := by
  -- the area is covered already, or its part on the screen joins the table, or the table is full
  rcases lvInvArea_cases hd area with ⟨heq, hcov⟩ | ⟨com, hin, hlen, hcom, heq⟩ | heq
  · rw [heq]
    refine ⟨hd, hm, ?_⟩
    rintro p ⟨hp | hp, hscr⟩
    · exact hp
    · obtain ⟨e, he, hep⟩ := hcov p hscr hp
      exact ⟨e, he, hm.unjoined e he, hep⟩
  · rw [heq]
    refine ⟨{ hd with }, ⟨?_, ?_, ?_⟩, ?_⟩
    · rw [List.length_append]
      exact hlen
    · exact List.forall_mem_append.mpr ⟨hm.inside, List.forall_mem_singleton.mpr hin⟩
    · exact List.forall_mem_append.mpr ⟨hm.unjoined, List.forall_mem_singleton.mpr rfl⟩
    · rintro p ⟨⟨e, he, hjoined, hep⟩ | hp, hscr⟩
      · exact ⟨e, List.mem_append_left _ he, hjoined, hep⟩
      · exact ⟨⟨com, false⟩, List.mem_append_right _ (List.mem_singleton.mpr rfl), rfl,
          (hcom p).mpr ⟨hp, hscr⟩⟩
  · rw [heq]
    have hflag : (disp.inv.head?.map InvArea.joined).getD false = false := by
      cases hinv : disp.inv with
      | nil => rfl
      | cons e es => exact hm.unjoined e (hinv ▸ List.mem_cons_self)
    rw [hflag]
    refine ⟨{ hd with }, ⟨?_, ?_, ?_⟩, ?_⟩
    · exact (by decide : 1 ≤ lvInvBufSize)
    · exact List.forall_mem_singleton.mpr (inside_scrArea hd)
    · exact List.forall_mem_singleton.mpr rfl
    · rintro p ⟨-, hscr⟩
      exact ⟨_, List.mem_singleton.mpr rfl, rfl, (scrArea_contains hd).mpr hscr⟩

end Marking

/-! ## Joining -/

/-- A round of the inner loop changes nothing, or joins one unjoined entry into another, when their
common hull is smaller than the two together. -/
theorem joinRound_cases (i j : ℕ) (inv : List InvArea) :
    joinRound i j inv = inv ∨
      ∃ a b, inv[i]? = some a ∧ inv[j]? = some b ∧ i ≠ j ∧ b.joined = false ∧
        lvAreaGetSize (lvAreaJoin a.area b.area) < lvAreaGetSize a.area + lvAreaGetSize b.area ∧
        joinRound i j inv =
          (inv.set i { a with area := lvAreaJoin a.area b.area }).set j { b with joined := true } := by
  unfold joinRound
  split
  · next a b ha hb =>
    split
    · exact .inl rfl
    · next hskip =>
      rw [not_or] at hskip
      split
      · dsimp only
        split
        · next hsize => exact .inr ⟨a, b, ha, hb, hskip.2, by simpa using hskip.1, hsize, rfl⟩
        · exact .inl rfl
      · exact .inl rfl
  · exact .inl rfl

/-- The pixels of an entry that are to be drawn. -/
def InvArea.load (e : InvArea) : ℕ := if e.joined then 0 else e.area.width * e.area.height

/-- The pixels a refresh of the table draws. -/
def load (inv : List InvArea) : ℕ := (inv.map InvArea.load).sum

/-- An area that was joined into another is drawn with that one. -/
theorem InvArea.load_joined {e : InvArea} (h : e.joined = true) : e.load = 0 := if_pos h

/-- Another one costs its pixels. -/
theorem InvArea.load_unjoined {e : InvArea} (h : e.joined = false) :
    e.load = e.area.width * e.area.height := if_neg (by rw [h]; exact Bool.false_ne_true)

/-- The sum over a list with one entry replaced. -/
theorem sum_map_set {α : Type*} (f : α → ℕ) {l : List α} {i : ℕ} {a : α} (b : α)
    (h : l[i]? = some a) : ((l.set i b).map f).sum + f a = (l.map f).sum + f b := by
  induction l generalizing i with
  | nil => exact absurd h (by simp)
  | cons c cs ih =>
    cases i with
    | zero =>
      obtain rfl : c = a := by simpa using h
      simp only [List.set_cons_zero, List.map_cons, List.sum_cons]
      omega
    | succ i =>
      have hrest := ih (i := i) (by simpa using h)
      simp only [List.set_cons_succ, List.map_cons, List.sum_cons]
      omega

/-- What joining keeps, as the table changes from `inv` to `inv'`. -/
structure Joins (lcddev : LcdDev) (inv inv' : List InvArea) : Prop where
  length_eq : inv'.length = inv.length
  inside : (∀ e ∈ inv, e.area.Inside lcddev) → ∀ e ∈ inv', e.area.Inside lcddev
  covers : invalid inv ⊆ invalid inv'
  load_le : (∀ e ∈ inv, e.area.Inside lcddev) → load inv' ≤ load inv

namespace Joins

/-- Without a join nothing changes. -/
theorem refl (inv : List InvArea) : Joins lcddev inv inv :=
  ⟨rfl, fun h => h, fun _ h => h, fun _ => le_rfl⟩

/-- One join after the other. -/
theorem trans {inv inv' inv'' : List InvArea} (h : Joins lcddev inv inv')
    (h' : Joins lcddev inv' inv'') : Joins lcddev inv inv'' where
  length_eq := h'.length_eq.trans h.length_eq
  inside hin := h'.inside (h.inside hin)
  covers := h.covers.trans h'.covers
  load_le hin := (h'.load_le (h.inside hin)).trans (h.load_le hin)

/-- A loop whose rounds join, under a condition they keep, joins. -/
theorem foldl {α : Type*} {P : List InvArea → Prop} {round : List InvArea → α → List InvArea}
    (hround : ∀ inv a, P inv → Joins lcddev inv (round inv a) ∧ P (round inv a)) (as : List α)
    {inv : List InvArea} (h : P inv) :
    Joins lcddev inv (as.foldl round inv) ∧ P (as.foldl round inv) := by
  induction as generalizing inv with
  | nil => exact ⟨refl inv, h⟩
  | cons a as ih =>
    obtain ⟨hj, hp⟩ := hround inv a h
    obtain ⟨hj', hp'⟩ := ih hp
    exact ⟨hj.trans hj', hp'⟩

end Joins

/-- The entry joined into is itself still to be drawn. -/
def Unjoined (i : ℕ) (inv : List InvArea) : Prop := ∃ a, inv[i]? = some a ∧ a.joined = false

/-- An entry of the table after a join: the larger one, the flagged one, or an old one. -/
theorem getElem?_joined {inv : List InvArea} {i j : ℕ} {a b a' b' : InvArea}
    (ha : inv[i]? = some a) (hb : inv[j]? = some b) (k : ℕ) :
    ((inv.set i a').set j b')[k]? =
      if k = j then some b' else if k = i then some a' else inv[k]? := by
  have hi := (List.getElem?_eq_some_iff.mp ha).1
  have hj := (List.getElem?_eq_some_iff.mp hb).1
  by_cases hkj : k = j
  · rw [hkj, List.getElem?_set_self (by rwa [List.length_set]), if_pos rfl]
  · rw [List.getElem?_set_ne (Ne.symm hkj), if_neg hkj]
    by_cases hki : k = i
    · rw [hki, List.getElem?_set_self hi, if_pos rfl]
    · rw [List.getElem?_set_ne (Ne.symm hki), if_neg hki]

/-- One comparison of the inner loop. -/
theorem joinRound_joins (i j : ℕ) {inv : List InvArea} (h : Unjoined i inv) :
    Joins lcddev inv (joinRound i j inv) ∧ Unjoined i (joinRound i j inv) := by
  rcases joinRound_cases i j inv with heq | ⟨a, b, ha, hb, hne, hjoined, hsize, heq⟩
  · rw [heq]
    exact ⟨Joins.refl inv, h⟩
  · rw [heq]
    have hget := @getElem?_joined inv i j a b { a with area := lvAreaJoin a.area b.area }
      { b with joined := true } ha hb
    obtain ⟨a', ha', hunjoined⟩ := h
    obtain rfl : a = a' := Option.some.inj (ha.symm.trans ha')
    have hmemA := List.mem_of_getElem? ha
    have hmemB := List.mem_of_getElem? hb
    refine ⟨⟨by simp, fun hin e he => ?_, ?_, fun hin => ?_⟩, ?_⟩
    · obtain ⟨k, hk⟩ := List.mem_iff_getElem?.mp he
      rw [hget] at hk
      split_ifs at hk
      · exact Option.some.inj hk ▸ hin b hmemB
      · exact Option.some.inj hk ▸ inside_lvAreaJoin (hin a hmemA) (hin b hmemB)
      · exact hin e (List.mem_of_getElem? hk)
    · rintro p ⟨e, he, hej, hep⟩
      obtain ⟨k, hk⟩ := List.mem_iff_getElem?.mp he
      -- what either of the two covered, the larger entry covers
      have hlarge : a.area.Contains p ∨ b.area.Contains p → p ∈ invalid ((inv.set i
          { a with area := lvAreaJoin a.area b.area }).set j { b with joined := true }) := by
        intro hp
        refine ⟨{ a with area := lvAreaJoin a.area b.area }, List.mem_of_getElem? (i := i) ?_,
          hunjoined, contains_lvAreaJoin hp⟩
        rw [hget, if_neg hne, if_pos rfl]
      by_cases hkj : k = j
      · rw [hkj, hb] at hk
        exact hlarge (.inr (Option.some.inj hk ▸ hep))
      · by_cases hki : k = i
        · rw [hki, ha] at hk
          exact hlarge (.inl (Option.some.inj hk ▸ hep))
        · refine ⟨e, List.mem_of_getElem? (i := k) ?_, hej, hep⟩
          rw [hget, if_neg hkj, if_neg hki, hk]
    · have hb' : (inv.set i { a with area := lvAreaJoin a.area b.area })[j]? = some b := by
        rw [List.getElem?_set_ne hne, hb]
      have hfirst := sum_map_set InvArea.load { a with area := lvAreaJoin a.area b.area } ha
      have hsecond := sum_map_set InvArea.load { b with joined := true } hb'
      rw [InvArea.load_unjoined hunjoined, InvArea.load_unjoined (by exact hunjoined)] at hfirst
      rw [InvArea.load_unjoined hjoined, InvArea.load_joined rfl] at hsecond
      have hA := hin a hmemA
      have hB := hin b hmemB
      have hjoin := lvAreaGetSize_eq (inside_lvAreaJoin hA hB)
      have hsum : (lvAreaGetSize (lvAreaJoin a.area b.area)).toNat ≤
          a.area.width * a.area.height + b.area.width * b.area.height := by
        rw [UInt32.lt_iff_toNat_lt, UInt32.toNat_add, lvAreaGetSize_eq hA, lvAreaGetSize_eq hB]
          at hsize
        exact hsize.le.trans (Nat.mod_le _ _)
      rw [hjoin] at hsum
      dsimp only at hfirst
      unfold load
      omega
    · refine ⟨{ a with area := lvAreaJoin a.area b.area }, ?_, hunjoined⟩
      rw [hget, if_neg hne, if_pos rfl]

/-- All comparisons with one area. -/
theorem joinInto_joins (i : ℕ) (inv : List InvArea) : Joins lcddev inv (joinInto i inv) := by
  unfold joinInto
  split
  · exact Joins.refl inv
  · next hflag =>
    have hi : Unjoined i inv := by
      cases hget : inv[i]? with
      | none => exact absurd (by rw [hget]; rfl) hflag
      | some a => exact ⟨a, hget, by simpa [hget] using hflag⟩
    exact (Joins.foldl (P := Unjoined i) (fun inv j h => joinRound_joins i j h) _ hi).1

theorem lvRefrJoinArea_joins (inv : List InvArea) : Joins lcddev inv (lvRefrJoinArea inv) :=
  (Joins.foldl (P := fun _ => True) (fun inv i _ => ⟨joinInto_joins i inv, trivial⟩) _ trivial).1

/-! ## Any number of calls -/

/-- After any number of calls the table holds areas of the screen that cover all marks. -/
theorem lvInvArea_run_marked (areas : List LvArea) {disp : LvDisp} (hd : Attached lcddev disp)
    (hm : Marked lcddev disp.inv) :
    Attached lcddev (areas.foldl (fun disp area => lvInvArea disp (some area)) disp) ∧
      Marked lcddev (areas.foldl (fun disp area => lvInvArea disp (some area)) disp).inv ∧
      ∀ p ∈ screen lcddev, (p ∈ invalid disp.inv ∨ ∃ area ∈ areas, area.Contains p) →
        p ∈ invalid (areas.foldl (fun disp area => lvInvArea disp (some area)) disp).inv := by
  induction areas generalizing disp with
  | nil => exact ⟨hd, hm, fun p _ hp => hp.resolve_right fun ⟨_, h, _⟩ => absurd h List.not_mem_nil⟩
  | cons area areas ih =>
    obtain ⟨hd', hm', hcov⟩ := lvInvArea_covers hd hm area
    obtain ⟨hd'', hm'', hcov'⟩ := ih hd' hm'
    refine ⟨hd'', hm'', fun p hscr hp => hcov' p hscr ?_⟩
    rcases hp with hp | ⟨a, ha, hp⟩
    · exact .inl (hcov ⟨.inl hp, hscr⟩)
    · rcases List.mem_cons.mp ha with rfl | hmem
      · exact .inl (hcov ⟨.inr hp, hscr⟩)
      · exact .inr ⟨a, hmem, hp⟩

/-- Whatever the calls of `lv_inv_area` since the last refresh, the areas left after joining lie on the
screen, are at most 32, and cover every pixel of the screen that was marked; and joining has not made
more pixels to draw. -/
theorem lvRefrJoinArea_covers {disp : LvDisp} (hd : Attached lcddev disp)
    (hm : Marked lcddev disp.inv) (areas : List LvArea) :
    let inv := (areas.foldl (fun disp area => lvInvArea disp (some area)) disp).inv
    (lvRefrJoinArea inv).length ≤ lvInvBufSize ∧
      (∀ e ∈ lvRefrJoinArea inv, e.area.Inside lcddev) ∧
      (∀ p ∈ screen lcddev, (p ∈ invalid disp.inv ∨ ∃ area ∈ areas, area.Contains p) →
        p ∈ invalid (lvRefrJoinArea inv)) ∧
      load (lvRefrJoinArea inv) ≤ load inv := by
  intro inv
  obtain ⟨-, hm', hcov⟩ := lvInvArea_run_marked areas hd hm
  have hjoins : Joins lcddev inv (lvRefrJoinArea inv) := lvRefrJoinArea_joins inv
  refine ⟨?_, hjoins.inside hm'.inside, fun p hscr hp => hjoins.covers (hcov p hscr hp),
    hjoins.load_le hm'.inside⟩
  rw [hjoins.length_eq]
  exact hm'.length_le

/-- Two areas that meet, on an upright panel. -/
theorem lvRefrJoinArea_covers_two :
    (50, 3) ∈ invalid (lvRefrJoinArea ([⟨0, 0, 99, 9⟩, ⟨0, 5, 99, 14⟩].foldl
      (fun disp area => lvInvArea disp (some area)) ⟨240, 320, 4800, []⟩).inv) := by
  have hd : Attached (lcdDisplayDirParams ⟨0, 0, 0x9341, 0, 0, 0, 0⟩ 0) ⟨240, 320, 4800, []⟩ := by
    constructor <;> decide
  obtain ⟨-, -, hcov, -⟩ := lvRefrJoinArea_covers hd Marked.nil [⟨0, 0, 99, 9⟩, ⟨0, 5, 99, 14⟩]
  have hscr : (50, 3) ∈ screen (lcdDisplayDirParams ⟨0, 0, 0x9341, 0, 0, 0, 0⟩ 0) :=
    ⟨by decide, by decide⟩
  exact hcov (50, 3) hscr (.inr ⟨_, List.mem_cons_self, by unfold LvArea.Contains; decide⟩)

end Stm32Board.Gui
