import SceneMarkup.Json.Reader

/-!
# Blanks

Blanks in front of a value, of a comma or of the end of an array or object do not matter to the
reader of JSON, and neither does the place that it has come to.

## Main definitions

* `AllBlank` — texts of blanks only.

## Main results

* `skipBlanks_append`, `readValue_append` — blanks in front of something are passed over.
* `readEnd_of_allBlank`, `allBlank_of_readEnd` — blanks may remain behind a value.
-/

namespace SceneMarkup
namespace Json

/-! ### Blanks -/

/-- A text of blanks only. -/
def AllBlank (b : List Char) : Prop := ∀ c ∈ b, isBlank c = true

theorem allBlank_nil : AllBlank [] := by
  intro c hc
  exact absurd hc (List.not_mem_nil)

theorem skipFrom_append_of_allBlank {b : List Char} (hb : AllBlank b) (p : Position)
    (r : List Char) : ∃ q, skipFrom p (b ++ r) = skipFrom q r := by
  induction b generalizing p with
  | nil => exact ⟨p, rfl⟩
  | cons c b ih =>
    have hc : isBlank c = true := hb c (List.mem_cons_self)
    obtain ⟨q, hq⟩ := ih (fun d hd => hb d (List.mem_cons_of_mem c hd)) (p.past c)
    refine ⟨q, ?_⟩
    rw [List.cons_append, skipFrom, if_pos hc, hq]

theorem skipFrom_cons_of_not_isBlank {c : Char} (hc : isBlank c = false) (p : Position)
    (r : List Char) : skipFrom p (c :: r) = ⟨c :: r, p⟩ := by
  rw [skipFrom, if_neg (by rw [hc]; exact Bool.false_ne_true)]

/-- Behind the blanks of a text there is its end or something else than a blank. -/
theorem skipFrom_cases (p : Position) (t : List Char) :
    AllBlank t ∨ ∃ b c r q, AllBlank b ∧ isBlank c = false ∧ t = b ++ c :: r ∧
      skipFrom p t = ⟨c :: r, q⟩ := by
  induction t generalizing p with
  | nil => exact Or.inl allBlank_nil
  | cons x t ih =>
    by_cases hx : isBlank x = true
    · rcases ih (p.past x) with hall | ⟨b, c, r, q, hb, hc, rfl, hq⟩
      · left
        intro d hd
        rcases List.mem_cons.1 hd with rfl | hd
        · exact hx
        · exact hall d hd
      · refine Or.inr ⟨x :: b, c, r, q, ?_, hc, rfl, ?_⟩
        · intro d hd
          rcases List.mem_cons.1 hd with rfl | hd
          · exact hx
          · exact hb d hd
        · rw [skipFrom, if_pos hx, hq]
    · have hx' : isBlank x = false := by simpa using hx
      exact Or.inr ⟨[], x, t, p, allBlank_nil, hx', rfl, skipFrom_cons_of_not_isBlank hx' p t⟩

theorem skipFrom_of_allBlank {b : List Char} (hb : AllBlank b) (p : Position) :
    ∃ q, skipFrom p b = ⟨[], q⟩ := by
  obtain ⟨q, hq⟩ := skipFrom_append_of_allBlank hb p []
  refine ⟨q, ?_⟩
  rw [List.append_nil] at hq
  rw [hq, skipFrom]

/-- Blanks are skipped once. -/
@[simp] theorem skipBlanks_skipBlanks (c : Cursor) : c.skipBlanks.skipBlanks = c.skipBlanks := by
  obtain ⟨t, p⟩ := c
  show (skipFrom p t).skipBlanks = skipFrom p t
  rcases skipFrom_cases p t with hall | ⟨b, x, r, q, -, hx, -, hq⟩
  · obtain ⟨q, hq⟩ := skipFrom_of_allBlank hall p
    rw [hq]
    rfl
  · rw [hq]
    exact skipFrom_cons_of_not_isBlank hx q r

theorem readEnd_of_allBlank {b : List Char} (hb : AllBlank b) (p : Position) :
    readEnd ⟨b, p⟩ = .ok () := by
  obtain ⟨q, hq⟩ := skipFrom_of_allBlank hb p
  have hskip : (Cursor.mk b p).skipBlanks = ⟨[], q⟩ := hq
  rw [readEnd, hskip]

theorem allBlank_of_readEnd {c : Cursor} (h : readEnd c = .ok ()) : AllBlank c.rest := by
  obtain ⟨t, p⟩ := c
  rcases skipFrom_cases p t with hall | ⟨b, x, r, q, -, -, -, hq⟩
  · exact hall
  · have hskip : (Cursor.mk t p).skipBlanks = ⟨x :: r, q⟩ := hq
    rw [readEnd, hskip] at h
    cases h

/-! ### Values behind blanks -/

/-- Values start behind blanks. -/
theorem readValue_skipBlanks (fuel : Nat) (c : Cursor) :
    readValue (fuel + 1) c.skipBlanks = readValue (fuel + 1) c := by
  rw [readValue, readValue, skipBlanks_skipBlanks]

theorem AllBlank.append {b b' : List Char} (hb : AllBlank b) (hb' : AllBlank b') :
    AllBlank (b ++ b') := by
  intro c hc
  rcases List.mem_append.1 hc with hc | hc
  · exact hb c hc
  · exact hb' c hc

/-- The place behind blanks, in front of something else. -/
theorem skipBlanks_append {b : List Char} (hb : AllBlank b) {x : Char} (hx : isBlank x = false)
    (t : List Char) (p : Position) :
    ∃ q, (Cursor.mk (b ++ x :: t) p).skipBlanks = ⟨x :: t, q⟩ := by
  obtain ⟨q, hq⟩ := skipFrom_append_of_allBlank hb p (x :: t)
  rw [skipFrom_cons_of_not_isBlank hx] at hq
  exact ⟨q, hq⟩

theorem readValue_append {b : List Char} (hb : AllBlank b) (t : List Char) (fuel : Nat)
    (p : Position) :
    ∃ q, readValue (fuel + 1) ⟨b ++ t, p⟩ = readValue (fuel + 1) ⟨t, q⟩ := by
  obtain ⟨q, hq⟩ := skipFrom_append_of_allBlank hb p t
  have hskip : (Cursor.mk (b ++ t) p).skipBlanks = (Cursor.mk t q).skipBlanks := hq
  exact ⟨q, by rw [← readValue_skipBlanks, hskip, readValue_skipBlanks]⟩

end Json
end SceneMarkup
