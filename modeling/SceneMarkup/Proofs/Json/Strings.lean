import Mathlib.Tactic.SplitIfs
import SceneMarkup.Json.Printer
import SceneMarkup.Json.Reader

/-!
# Strings inside a JSON text

A string that was written is read again, whatever its characters are and whatever follows it.

## Main results

* `escaped_cases` — the ways in which a character is written.
* `readChars_escaped` — one character, however it was written, is read in one step.
* **`readString_stringText`** — a string that was written is read again.
-/

namespace SceneMarkup
namespace Json

/-! ### One character -/

theorem readChars_of_readEscape {t : List Char} {p : Position} {c : Char} {c' : Cursor}
    (h : readEscape ⟨t, p.past '\\'⟩ = .ok (c, c')) (fuel : Nat) (seen : List Char) :
    readChars (fuel + 1) seen ⟨'\\' :: t, p⟩ = readChars fuel (c :: seen) c' := by
  have hnext : (Cursor.mk ('\\' :: t) p).next = ⟨t, p.past '\\'⟩ := rfl
  rw [readChars]
  simp only [hnext, h]
  rfl

/-- An escape by a letter is read in one step. -/
theorem readChars_escape {x c : Char} (hu : x ≠ 'u') (hx : escapedChar? x = some c) (fuel : Nat)
    (seen r : List Char) (p : Position) :
    ∃ q, readChars (fuel + 1) seen ⟨'\\' :: x :: r, p⟩ = readChars fuel (c :: seen) ⟨r, q⟩ := by
  refine ⟨(p.past '\\').past x, readChars_of_readEscape ?_ fuel seen⟩
  unfold readEscape
  simp only [hu, hx, if_false]
  rfl

theorem readHex_of_hexValues? {x y z w : Char} {n : Nat} (h : hexValues? x y z w = some n)
    (r : List Char) (p : Position) :
    ∃ q, readHex ⟨x :: y :: z :: w :: r, p⟩ = .ok (n, ⟨r, q⟩) := by
  refine ⟨(((p.past x).past y).past z).past w, ?_⟩
  unfold readHex
  simp only [h]
  rfl

/-- The two digits of a control character stand for its number. -/
theorem hexValues?_hexByte (n : Nat) (hn : n < 0x20) :
    hexValues? '0' '0' (Nat.digitChar (n / 16)) (Nat.digitChar (n % 16)) = some n := by
  have hall : ∀ k : Nat, k < 0x20 →
      hexValues? '0' '0' (Nat.digitChar (k / 16)) (Nat.digitChar (k % 16)) = some k := by decide
  exact hall n hn

/-- An escape by a number is read in one step. -/
theorem readChars_hexByte {c : Char} (hc : c.toNat < 0x20) (fuel : Nat) (seen r : List Char)
    (p : Position) :
    ∃ q, readChars (fuel + 1) seen ⟨'\\' :: 'u' :: '0' :: '0' :: hexByte c.toNat ++ r, p⟩ =
      readChars fuel (c :: seen) ⟨r, q⟩ := by
  obtain ⟨q, hhex⟩ := readHex_of_hexValues? (hexValues?_hexByte c.toNat hc) r
    ((p.past '\\').past 'u')
  refine ⟨q, readChars_of_readEscape ?_ fuel seen⟩
  show readUnicode ⟨'0' :: '0' :: Nat.digitChar (c.toNat / 16) :: Nat.digitChar (c.toNat % 16) :: r,
    (p.past '\\').past 'u'⟩ = _
  have hlow : ¬ (0xDC00 ≤ c.toNat ∧ c.toNat ≤ 0xDFFF) := by omega
  have hhigh : ¬ (0xD800 ≤ c.toNat ∧ c.toNat ≤ 0xDBFF) := by omega
  unfold readUnicode
  rw [hhex]
  simp only [hlow, hhigh, if_false, Char.ofNat_toNat]

/-- A character that is neither a quote nor a backslash nor a control character is read as it is. -/
theorem readChars_plain {c : Char} (hq : c ≠ '"') (hb : c ≠ '\\') (hc : ¬ c.toNat < 0x20)
    (fuel : Nat) (seen r : List Char) (p : Position) :
    readChars (fuel + 1) seen ⟨c :: r, p⟩ = readChars fuel (c :: seen) ⟨r, p.past c⟩ := by
  rw [readChars]
  simp only [hq, hb, hc, if_false]
  rfl

/-- A character is written as an escape by a letter, as an escape by its number, or as it is. -/
theorem escaped_cases (c : Char) :
    (∃ x, x ≠ 'u' ∧ escapedChar? x = some c ∧ escaped c = ['\\', x]) ∨
      (c.toNat < 0x20 ∧ escaped c = '\\' :: 'u' :: '0' :: '0' :: hexByte c.toNat) ∨
      (c ≠ '"' ∧ c ≠ '\\' ∧ ¬ c.toNat < 0x20 ∧ escaped c = [c]) := by
  unfold escaped
  split_ifs with hq hb h₁ h₂ h₃ h₄ h₅ hc
  · exact Or.inl ⟨'"', by decide, by rw [hq]; rfl, rfl⟩
  · exact Or.inl ⟨'\\', by decide, by rw [hb]; rfl, rfl⟩
  · exact Or.inl ⟨'b', by decide, by rw [h₁]; rfl, rfl⟩
  · exact Or.inl ⟨'t', by decide, by rw [h₂]; rfl, rfl⟩
  · exact Or.inl ⟨'n', by decide, by rw [h₃]; rfl, rfl⟩
  · exact Or.inl ⟨'f', by decide, by rw [h₄]; rfl, rfl⟩
  · exact Or.inl ⟨'r', by decide, by rw [h₅]; rfl, rfl⟩
  · exact Or.inr (Or.inl ⟨hc, rfl⟩)
  · exact Or.inr (Or.inr ⟨hq, hb, hc, rfl⟩)

/-- **One character.**

However a character of a string was written, it is read in one step. -/
theorem readChars_escaped (c : Char) (fuel : Nat) (seen r : List Char) (p : Position) :
    ∃ q, readChars (fuel + 1) seen ⟨escaped c ++ r, p⟩ = readChars fuel (c :: seen) ⟨r, q⟩ := by
  rcases escaped_cases c with ⟨x, hu, hx, h⟩ | ⟨hc, h⟩ | ⟨hq, hb, hc, h⟩
  · rw [h]
    exact readChars_escape hu hx fuel seen r p
  · rw [h]
    exact readChars_hexByte hc fuel seen r p
  · rw [h]
    exact ⟨p.past c, readChars_plain hq hb hc fuel seen r p⟩

/-! ### Strings -/

/-- The characters of a string that was written are read one by one. -/
theorem readChars_flatMap (s : List Char) (fuel : Nat) (hf : s.length < fuel)
    (seen r : List Char) (p : Position) :
    ∃ q, readChars fuel seen ⟨s.flatMap escaped ++ '"' :: r, p⟩ =
      .ok (seen.reverse ++ s, ⟨r, q⟩) := by
  induction s generalizing fuel seen p with
  | nil =>
    obtain ⟨fuel, rfl⟩ : ∃ m, fuel = m + 1 := ⟨fuel - 1, by omega⟩
    refine ⟨p.past '"', ?_⟩
    rw [List.append_nil]
    rfl
  | cons c s ih =>
    obtain ⟨fuel, rfl⟩ : ∃ m, fuel = m + 1 := ⟨fuel - 1, by omega⟩
    rw [List.length_cons] at hf
    obtain ⟨q, hq⟩ := readChars_escaped c fuel seen (s.flatMap escaped ++ '"' :: r) p
    obtain ⟨q', hq'⟩ := ih fuel (by omega) (c :: seen) q
    refine ⟨q', ?_⟩
    rw [List.flatMap_cons, List.append_assoc, hq, hq', List.reverse_cons, List.append_assoc]
    rfl

/-- Nothing is written shorter than it is. -/
theorem length_le_flatMap_escaped (s : List Char) : s.length ≤ (s.flatMap escaped).length := by
  induction s with
  | nil => exact Nat.le_refl _
  | cons c s ih =>
    have hpos : 0 < (escaped c).length := by
      rcases escaped_cases c with ⟨x, -, -, h⟩ | ⟨-, h⟩ | ⟨-, -, -, h⟩
      all_goals
        rw [h]
        exact Nat.succ_pos _
    rw [List.flatMap_cons, List.length_append, List.length_cons]
    omega

/-- **Strings inside a document.**

A string that was written is read again behind its opening quote, in as many steps as its text has
characters behind this quote. -/
theorem readString_stringText (s : String) (fuel : Nat) (hf : (stringText s).length ≤ fuel + 1)
    (r : List Char) (p : Position) :
    ∃ q, readString fuel ⟨s.toList.flatMap escaped ++ '"' :: r, p⟩ = .ok (s, ⟨r, q⟩) := by
  have hlength : s.toList.length < fuel := by
    have hle := length_le_flatMap_escaped s.toList
    simp only [stringText, List.length_append, List.length_cons] at hf
    omega
  obtain ⟨q, hq⟩ := readChars_flatMap s.toList fuel hlength [] r p
  refine ⟨q, ?_⟩
  rw [readString, hq]
  simp only [List.reverse_nil, List.nil_append, String.ofList_toList]

end Json
end SceneMarkup
