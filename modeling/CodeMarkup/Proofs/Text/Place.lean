import CodeMarkup.Text.Cursor

/-!
# Places of one text

A cursor knows what follows it but not the text it came from.  Two cursors belong together when one
is reached from the other by moving over characters; the places of a source are those reached from
its start.

* `Cursor.Passes` — moving over some characters leads from one place to another; `Cursor.Reaches`
  forgets which characters.  The places reached from one place are linearly ordered by offset
  (`Cursor.Reaches.of_le`, `Cursor.Reaches.eq_of_offset_eq`).
* `IsBoundary` — an offset lies between two characters.  `Cursor.seek?` finds the place of each
  boundary (`Cursor.seek?_of_reaches`), and the first place behind any other offset
  (`Cursor.seek?_of_le`).
* `slice_of_passes` — cutting a source between two of its places gives the characters passed.
-/

namespace CodeMarkup

/-! ## Lengths in bytes -/

@[simp] theorem utf8Length_nil : utf8Length [] = 0 := rfl

@[simp] theorem utf8Length_cons (c : Char) (rest : List Char) :
    utf8Length (c :: rest) = c.utf8Size + utf8Length rest := rfl

@[simp] theorem utf8Length_append (xs ys : List Char) :
    utf8Length (xs ++ ys) = utf8Length xs + utf8Length ys := by
  induction xs with
  | nil => simp
  | cons c xs ih => simp [ih, Nat.add_assoc]

/-- Every character has at least one byte, so only the empty text has none. -/
theorem utf8Length_eq_zero_iff {text : List Char} : utf8Length text = 0 ↔ text = [] := by
  cases text with
  | nil => simp
  | cons c rest =>
    have := c.utf8Size_pos
    simp
    omega

/-- An offset of a source that lies between two characters, or at an end. -/
def IsBoundary (source : List Char) (offset : Nat) : Prop :=
  ∃ before after, source = before ++ after ∧ utf8Length before = offset

namespace Cursor

/-! ## Moving over characters -/

/-- Moving from a place over the characters `passed` leads to another place. -/
structure Passes (place : Cursor) (passed : List Char) (further : Cursor) : Prop where
  rest_eq : place.rest = passed ++ further.rest
  offset_eq : further.offset = place.offset + utf8Length passed
  prev_eq : further.prev? = passed.getLast?.or place.prev?

/-- A place leads to another one by moving over characters. -/
def Reaches (place further : Cursor) : Prop := ∃ passed, place.Passes passed further

theorem Passes.refl (place : Cursor) : place.Passes [] place := ⟨rfl, rfl, rfl⟩

theorem Passes.trans {p q r : Cursor} {xs ys : List Char} (h₁ : p.Passes xs q)
    (h₂ : q.Passes ys r) : p.Passes (xs ++ ys) r where
  rest_eq := by rw [h₁.rest_eq, h₂.rest_eq, List.append_assoc]
  offset_eq := by rw [h₂.offset_eq, h₁.offset_eq, utf8Length_append, Nat.add_assoc]
  prev_eq := by rw [h₂.prev_eq, h₁.prev_eq, List.getLast?_append, Option.or_assoc]

theorem Passes.after {place : Cursor} {c : Char} {rest : List Char} (h : place.rest = c :: rest) :
    place.Passes [c] (place.after c rest) :=
  ⟨h, rfl, rfl⟩

/-- What a text begins with can be passed. -/
theorem exists_passes {place : Cursor} {passed rest : List Char} (h : place.rest = passed ++ rest) :
    ∃ further, place.Passes passed further ∧ further.rest = rest :=
  ⟨⟨place.offset + utf8Length passed, passed.getLast?.or place.prev?, rest⟩, ⟨h, rfl, rfl⟩, rfl⟩

/-- Of two places reached from one, the later one is reached from the earlier one. -/
theorem Passes.split {p q r : Cursor} {xs ys : List Char} (hq : p.Passes xs q)
    (hr : p.Passes ys r) (hle : q.offset ≤ r.offset) : ∃ zs, ys = xs ++ zs ∧ q.Passes zs r := by
  have hrest : xs ++ q.rest = ys ++ r.rest := by rw [← hq.rest_eq, hr.rest_eq]
  have hoffset : utf8Length xs ≤ utf8Length ys := by
    have := hq.offset_eq
    have := hr.offset_eq
    omega
  obtain ⟨zs, hys, hqr⟩ : ∃ zs, ys = xs ++ zs ∧ q.rest = zs ++ r.rest := by
    rcases List.append_eq_append_iff.1 hrest with ⟨zs, hys, hqr⟩ | ⟨zs, hxs, hrq⟩
    · exact ⟨zs, hys, hqr⟩
    · have hzs : zs = [] := by
        rw [hxs, utf8Length_append] at hoffset
        exact utf8Length_eq_zero_iff.1 (by omega)
      exact ⟨[], by simp [hxs, hzs], by simp [hrq, hzs]⟩
  refine ⟨zs, hys, hqr, ?_, ?_⟩
  · rw [hr.offset_eq, hq.offset_eq, hys, utf8Length_append, Nat.add_assoc]
  · rw [hr.prev_eq, hq.prev_eq, hys, List.getLast?_append, Option.or_assoc]

theorem Reaches.refl (place : Cursor) : place.Reaches place := ⟨[], .refl place⟩

theorem Reaches.trans {p q r : Cursor} (h₁ : p.Reaches q) (h₂ : q.Reaches r) : p.Reaches r :=
  let ⟨_, h₁⟩ := h₁
  let ⟨_, h₂⟩ := h₂
  ⟨_, h₁.trans h₂⟩

theorem Reaches.after {place : Cursor} {c : Char} {rest : List Char} (h : place.rest = c :: rest) :
    place.Reaches (place.after c rest) :=
  ⟨[c], .after h⟩

theorem Reaches.offset_le {p q : Cursor} (h : p.Reaches q) : p.offset ≤ q.offset := by
  obtain ⟨passed, h⟩ := h
  have := h.offset_eq
  omega

/-- The offset of the end of the text is the same from every place. -/
theorem Reaches.end_eq {p q : Cursor} (h : p.Reaches q) :
    q.offset + utf8Length q.rest = p.offset + utf8Length p.rest := by
  obtain ⟨passed, h⟩ := h
  rw [h.offset_eq, h.rest_eq, utf8Length_append, Nat.add_assoc]

theorem Reaches.of_le {p q r : Cursor} (hq : p.Reaches q) (hr : p.Reaches r)
    (hle : q.offset ≤ r.offset) : q.Reaches r :=
  let ⟨_, hq⟩ := hq
  let ⟨_, hr⟩ := hr
  let ⟨zs, _, h⟩ := hq.split hr hle
  ⟨zs, h⟩

/-- A place that reaches another one at the same offset is that place. -/
theorem Reaches.eq_of_offset_eq {p q : Cursor} (h : p.Reaches q) (hoffset : p.offset = q.offset) :
    p = q := by
  obtain ⟨passed, h⟩ := h
  have hpassed : passed = [] := by
    have := h.offset_eq
    exact utf8Length_eq_zero_iff.1 (by omega)
  subst hpassed
  obtain ⟨offset, prev?, rest⟩ := p
  obtain ⟨offset', prev?', rest'⟩ := q
  have hrest : rest = rest' := h.rest_eq
  have hprev : prev?' = prev? := h.prev_eq
  simp_all

/-- A place that reaches another one is that place, or reaches it from one character further on. -/
theorem Reaches.eq_or_after {p q : Cursor} (h : p.Reaches q) :
    p = q ∨ ∃ c rest, p.rest = c :: rest ∧ (p.after c rest).Reaches q := by
  obtain ⟨passed, h⟩ := h
  cases passed with
  | nil => exact .inl (Reaches.eq_of_offset_eq ⟨[], h⟩ h.offset_eq.symm)
  | cons c passed =>
    refine .inr ⟨c, passed ++ q.rest, h.rest_eq, passed, rfl, ?_, ?_⟩
    · rw [h.offset_eq, utf8Length_cons, ← Nat.add_assoc]
      rfl
    · rw [h.prev_eq, List.getLast?_cons]
      cases passed.getLast? <;> rfl

theorem Reaches.antisymm {p q : Cursor} (h₁ : p.Reaches q) (h₂ : q.Reaches p) : p = q :=
  h₁.eq_of_offset_eq (Nat.le_antisymm h₁.offset_le h₂.offset_le)

theorem Reaches.length_le {p q : Cursor} (h : p.Reaches q) : q.rest.length ≤ p.rest.length := by
  obtain ⟨passed, h⟩ := h
  rw [h.rest_eq, List.length_append]
  omega

/-- Text is left behind on the way to a greater offset. -/
theorem Reaches.length_lt {p q : Cursor} (h : p.Reaches q) (hlt : p.offset < q.offset) :
    q.rest.length < p.rest.length := by
  obtain ⟨passed, h⟩ := h
  have hpassed : passed ≠ [] := by
    rintro rfl
    have := h.offset_eq
    simp at this
    omega
  have := List.length_pos_iff.2 hpassed
  rw [h.rest_eq, List.length_append]
  omega

/-- There is one place of a text at an offset. -/
theorem Reaches.eq_of_offset {p q r : Cursor} (hq : p.Reaches q) (hr : p.Reaches r)
    (hoffset : q.offset = r.offset) : q = r :=
  (hq.of_le hr (Nat.le_of_eq hoffset)).eq_of_offset_eq hoffset

/-! ## Passing nothing, one character, two texts -/

theorem passes_nil_iff {p q : Cursor} : p.Passes [] q ↔ p = q := by
  constructor
  · intro h
    exact Reaches.eq_of_offset_eq ⟨[], h⟩ h.offset_eq.symm
  · rintro rfl
    exact .refl p

theorem passes_append_iff {xs ys : List Char} {p q : Cursor} :
    p.Passes (xs ++ ys) q ↔ ∃ r, p.Passes xs r ∧ r.Passes ys q := by
  constructor
  · intro h
    refine ⟨⟨p.offset + utf8Length xs, xs.getLast?.or p.prev?, ys ++ q.rest⟩, ?_, ?_⟩
    · exact ⟨by rw [h.rest_eq, List.append_assoc], rfl, rfl⟩
    · refine ⟨rfl, ?_, ?_⟩
      · rw [h.offset_eq, utf8Length_append, Nat.add_assoc]
      · rw [h.prev_eq, List.getLast?_append, Option.or_assoc]
  · rintro ⟨r, hxs, hys⟩
    exact hxs.trans hys

theorem passes_cons_iff {c : Char} {rest : List Char} {p q : Cursor} :
    p.Passes (c :: rest) q ↔ ∃ r, p.Passes [c] r ∧ r.Passes rest q := by
  rw [← List.singleton_append]
  exact passes_append_iff

theorem passes_singleton_iff {c : Char} {p q : Cursor} :
    p.Passes [c] q ↔ ∃ rest, p.rest = c :: rest ∧ q = p.after c rest := by
  constructor
  · intro h
    refine ⟨q.rest, h.rest_eq, ?_⟩
    obtain ⟨offset, prev?, rest⟩ := q
    obtain rfl : offset = p.offset + c.utf8Size := h.offset_eq
    obtain rfl : prev? = some c := h.prev_eq
    rfl
  · rintro ⟨rest, hrest, rfl⟩
    exact .after hrest

/-- What is passed between two places is determined. -/
theorem Passes.unique {p q : Cursor} {xs ys : List Char} (hxs : p.Passes xs q)
    (hys : p.Passes ys q) : xs = ys :=
  List.append_cancel_right (hxs.rest_eq.symm.trans hys.rest_eq)

/-- Passing a text from one place leads to one place. -/
theorem Passes.stop_unique {place further beyond : Cursor} {text : List Char}
    (h : place.Passes text further) (h' : place.Passes text beyond) : further = beyond := by
  have hoffset : further.offset = beyond.offset := by
    rw [h.offset_eq, h'.offset_eq]
  exact Reaches.eq_of_offset ⟨text, h⟩ ⟨text, h'⟩ hoffset

/-- A text that is not empty leads further on. -/
theorem Passes.offset_lt {place further : Cursor} {text : List Char}
    (h : place.Passes text further) (htext : text ≠ []) : place.offset < further.offset := by
  have hpos : utf8Length text ≠ 0 := fun hzero => htext (utf8Length_eq_zero_iff.1 hzero)
  rw [h.offset_eq]
  omega

/-! ## The places of a source -/

theorem passes_start_iff {source before : List Char} {place : Cursor} :
    (start source).Passes before place ↔ source = before ++ place.rest ∧
      place.offset = utf8Length before ∧ place.prev? = before.getLast? := by
  constructor
  · rintro ⟨hrest, hoffset, hprev⟩
    exact ⟨hrest, by simpa [start] using hoffset, by simpa [start] using hprev⟩
  · rintro ⟨hrest, hoffset, hprev⟩
    exact ⟨hrest, by simpa [start] using hoffset, by simpa [start] using hprev⟩

theorem isBoundary_iff {source : List Char} {offset : Nat} :
    IsBoundary source offset ↔ ∃ place, (start source).Reaches place ∧ place.offset = offset := by
  constructor
  · rintro ⟨before, after, rfl, rfl⟩
    exact ⟨⟨utf8Length before, before.getLast?, after⟩,
      ⟨before, rfl, by simp [start], by simp [start]⟩, rfl⟩
  · rintro ⟨place, ⟨before, h⟩, rfl⟩
    exact ⟨before, place.rest, h.rest_eq, by rw [h.offset_eq]; simp [start]⟩

theorem Reaches.isBoundary {source : List Char} {place : Cursor}
    (h : (start source).Reaches place) : IsBoundary source place.offset :=
  isBoundary_iff.2 ⟨place, h, rfl⟩

theorem seekFrom_of_passes {offset : Nat} {prev? : Option Char} {text passed : List Char}
    {place : Cursor} (h : Passes ⟨offset, prev?, text⟩ passed place) :
    seekFrom place.offset offset prev? text = some place := by
  induction passed generalizing offset prev? text with
  | nil =>
    have hplace : (⟨offset, prev?, text⟩ : Cursor) = place :=
      Reaches.eq_of_offset_eq ⟨[], h⟩ h.offset_eq.symm
    subst hplace
    cases text <;> simp [seekFrom]
  | cons c passed ih =>
    have htext : text = c :: (passed ++ place.rest) := h.rest_eq
    have hoffset := h.offset_eq
    have hpos := c.utf8Size_pos
    simp only [utf8Length_cons] at hoffset
    subst htext
    rw [seekFrom, if_neg (by omega)]
    refine ih ⟨rfl, by simp only; omega, ?_⟩
    rw [h.prev_eq, List.getLast?_cons]
    cases passed.getLast? <;> rfl

/-- Seeking the offset of a place of a source finds the place. -/
theorem seek?_of_reaches {source : List Char} {place : Cursor}
    (h : (start source).Reaches place) : seek? source place.offset = some place :=
  let ⟨_, h⟩ := h
  seekFrom_of_passes h

theorem seekFrom_eq_some {target offset : Nat} {prev? : Option Char} {text : List Char}
    {place : Cursor} (h : seekFrom target offset prev? text = some place) :
    Reaches ⟨offset, prev?, text⟩ place ∧ target ≤ place.offset := by
  induction text generalizing offset prev? with
  | nil =>
    rw [seekFrom] at h
    split at h
    · cases h
      exact ⟨.refl _, by assumption⟩
    · cases h
  | cons c rest ih =>
    rw [seekFrom] at h
    split at h
    · cases h
      exact ⟨.refl _, by assumption⟩
    · obtain ⟨hreaches, hle⟩ := ih h
      exact ⟨.trans (.after rfl) hreaches, hle⟩

/-- Seeking finds places of the source only. -/
theorem seek?_reaches {source : List Char} {target : Nat} {place : Cursor}
    (h : seek? source target = some place) : (start source).Reaches place :=
  (seekFrom_eq_some h).1

/-- Seeking an offset finds a place that is not before it. -/
theorem le_of_seek? {source : List Char} {target : Nat} {place : Cursor}
    (h : seek? source target = some place) : target ≤ place.offset :=
  (seekFrom_eq_some h).2

theorem seekFrom_of_le {target offset : Nat} {prev? : Option Char} {text : List Char} {q : Cursor}
    (hq : Reaches ⟨offset, prev?, text⟩ q) (hle : target ≤ q.offset) :
    ∃ place, seekFrom target offset prev? text = some place ∧ place.Reaches q := by
  induction text generalizing offset prev? with
  | nil =>
    rcases hq.eq_or_after with rfl | ⟨c, rest, hcons, -⟩
    · exact ⟨_, if_pos hle, .refl _⟩
    · cases hcons
  | cons c rest ih =>
    rw [seekFrom]
    split
    · exact ⟨_, rfl, hq⟩
    · rename_i hlt
      rcases hq.eq_or_after with rfl | ⟨d, more, hcons, hafter⟩
      · exact absurd hle hlt
      · cases hcons
        exact ih hafter

/-- Seeking an offset finds the first of the places at or after it. -/
theorem seek?_of_le {source : List Char} {target : Nat} {q : Cursor}
    (hq : (start source).Reaches q) (hle : target ≤ q.offset) :
    ∃ place, seek? source target = some place ∧ place.Reaches q :=
  seekFrom_of_le hq hle

end Cursor

/-! ## Cutting a source -/

theorem dropBytes_append (before after : List Char) :
    dropBytes (utf8Length before) (before ++ after) = after := by
  induction before with
  | nil => cases after <;> rfl
  | cons c before ih =>
    obtain ⟨n, hn⟩ : ∃ n, utf8Length (c :: before) = n + 1 :=
      Nat.exists_eq_succ_of_ne_zero (by rw [Ne, utf8Length_eq_zero_iff]; simp)
    have hsize : n + 1 - c.utf8Size = utf8Length before := by
      simp only [utf8Length_cons] at hn
      omega
    rw [hn, List.cons_append, dropBytes, hsize, ih]

theorem takeBytes_append (passed rest : List Char) :
    takeBytes (utf8Length passed) (passed ++ rest) = passed := by
  induction passed with
  | nil =>
    cases rest with
    | nil => rfl
    | cons c rest =>
      have := c.utf8Size_pos
      simp [takeBytes]
      omega
  | cons c passed ih => simp [takeBytes, ih]

/-- Dropping what stands before a place of a source leaves what stands behind it. -/
theorem dropBytes_of_reaches {source : List Char} {place : Cursor}
    (h : (Cursor.start source).Reaches place) : dropBytes place.offset source = place.rest := by
  obtain ⟨before, h⟩ := h
  have hsource : source = before ++ place.rest := h.rest_eq
  have hoffset : place.offset = utf8Length before := by
    rw [h.offset_eq]
    simp [Cursor.start]
  rw [hsource, hoffset, dropBytes_append]

/-- Cutting a source between two of its places gives the characters between them. -/
theorem slice_of_passes {source passed : List Char} {place further : Cursor}
    (hplace : (Cursor.start source).Reaches place) (h : place.Passes passed further) :
    slice source place.offset further.offset = passed := by
  have hlength : further.offset - place.offset = utf8Length passed := by
    rw [h.offset_eq]
    omega
  rw [slice, hlength, dropBytes_of_reaches hplace, h.rest_eq, takeBytes_append]

end CodeMarkup
