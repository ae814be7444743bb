import SceneMarkup.Proofs.Json.Numbers
import SceneMarkup.Proofs.Json.Sorted
import SceneMarkup.Proofs.Json.Strings

/-!
# Reading what was written

A value that was written over several lines is read again, with the members of its objects sorted by
key.  The reader goes through the text in step with the writer: what remains behind a value that was
read is what the writer put behind it.

## Main results

* `readValue_prettyAt` — a value is read where it was written, at any level and in front of any text
  that ends a number.
* **`read_pretty`** — a value that was written is read again.
-/

namespace SceneMarkup
namespace Json

/-! ### Starts of lines -/

theorem allBlank_newline (level : Nat) : AllBlank (newline level) := by
  intro c hc
  rcases List.mem_cons.1 hc with rfl | hc
  · rfl
  · rw [List.eq_of_mem_replicate hc]
    rfl

theorem endsNumber_newline (level : Nat) (r : List Char) : EndsNumber (newline level ++ r) := by
  intro x hx
  obtain rfl : '\n' = x := Option.some.inj hx
  decide

theorem endsNumber_comma (r : List Char) : EndsNumber (',' :: r) := by
  intro x hx
  obtain rfl : ',' = x := Option.some.inj hx
  decide

/-- A value does not start with the end of an array. -/
theorem exists_of_readValue {fuel : Nat} {c : Cursor} {a : Json × Cursor}
    (h : readValue (fuel + 1) c = .ok a) :
    ∃ x t p, c.skipBlanks = ⟨x :: t, p⟩ ∧ x ≠ ']' := by
  obtain ⟨t, p, hc⟩ : ∃ t p, c.skipBlanks = ⟨t, p⟩ := ⟨_, _, rfl⟩
  cases t with
  | nil =>
    rw [readValue, hc] at h
    cases h
  | cons x t =>
    refine ⟨x, t, p, hc, ?_⟩
    rintro rfl
    rw [readValue, hc] at h
    cases h

/-! ### Items -/

theorem nextItem?_comma {c : Cursor} {t : List Char} {p : Position}
    (hc : c.skipBlanks = ⟨',' :: t, p⟩) {x : Char} {s : List Char} {q : Position}
    (ht : (Cursor.mk t (p.past ',')).skipBlanks = ⟨x :: s, q⟩) (hx : x ≠ ']') :
    nextItem? false c = .ok (some ⟨x :: s, q⟩) := by
  have hnext : (Cursor.mk (',' :: t) p).next = ⟨t, p.past ','⟩ := rfl
  unfold nextItem?
  simp only [hc, hnext, ht, hx, if_false]
  rfl

theorem readItems_end (fuel : Nat) (first : Bool) {c : Cursor} {t : List Char} {p : Position}
    (hc : c.skipBlanks = ⟨']' :: t, p⟩) :
    readItems (fuel + 1) first c = .ok ([], ⟨t, p.past ']'⟩) := by
  have hnext : nextItem? first c = .ok none := by
    unfold nextItem?
    simp only [hc, if_true]
  rw [readItems, hnext]
  simp only [hc]
  rfl

/-- The first item of an array is read where the array starts. -/
theorem readItems_first {fuel : Nat} {t : List Char} {v : Json} {s : List Char}
    (hv : ∀ q, ∃ b q', AllBlank b ∧ readValue (fuel + 1) ⟨t, q⟩ = .ok (v, ⟨b ++ s, q'⟩))
    {b : List Char} (hb : AllBlank b) (p : Position) :
    ∃ b' q, AllBlank b' ∧ ∀ vs c, readItems (fuel + 1) false ⟨b' ++ s, q⟩ = .ok (vs, c) →
      readItems (fuel + 2) true ⟨b ++ t, p⟩ = .ok (v :: vs, c) := by
  obtain ⟨q₁, happend⟩ := readValue_append hb t fuel p
  obtain ⟨b', q, hb', hvalue⟩ := hv q₁
  rw [← happend] at hvalue
  refine ⟨b', q, hb', ?_⟩
  intro vs c hvs
  obtain ⟨x, u, q₂, hskip, hx⟩ := exists_of_readValue hvalue
  have hnext : nextItem? true ⟨b ++ t, p⟩ = .ok (some (Cursor.mk (b ++ t) p).skipBlanks) := by
    unfold nextItem?
    simp only [hskip, hx, if_false, if_true]
  rw [readItems, hnext]
  simp only [readValue_skipBlanks, hvalue, hvs]

/-- Every other item is read behind a comma. -/
theorem readItems_comma {fuel : Nat} {t : List Char} {v : Json} {s : List Char}
    (hv : ∀ q, ∃ b q', AllBlank b ∧ readValue (fuel + 1) ⟨t, q⟩ = .ok (v, ⟨b ++ s, q'⟩))
    {b b₁ : List Char} (hb : AllBlank b) (hb₁ : AllBlank b₁) (p : Position) :
    ∃ b' q, AllBlank b' ∧ ∀ vs c, readItems (fuel + 1) false ⟨b' ++ s, q⟩ = .ok (vs, c) →
      readItems (fuel + 2) false ⟨b ++ ',' :: (b₁ ++ t), p⟩ = .ok (v :: vs, c) := by
  obtain ⟨q₁, hcomma⟩ := skipBlanks_append hb (x := ',') (by decide) (b₁ ++ t) p
  obtain ⟨q₂, happend⟩ := readValue_append hb₁ t fuel (q₁.past ',')
  obtain ⟨b', q, hb', hvalue⟩ := hv q₂
  rw [← happend] at hvalue
  refine ⟨b', q, hb', ?_⟩
  intro vs c hvs
  obtain ⟨x, u, q₃, hskip, hx⟩ := exists_of_readValue hvalue
  rw [readItems, nextItem?_comma hcomma hskip hx, ← hskip]
  simp only [readValue_skipBlanks, hvalue, hvs]

/-! ### Members -/

theorem nextKey?_first {c : Cursor} {t : List Char} {p : Position}
    (hc : c.skipBlanks = ⟨'"' :: t, p⟩) : nextKey? true c = .ok (some ⟨'"' :: t, p⟩) := by
  unfold nextKey?
  simp only [hc]
  rfl

theorem nextKey?_comma {c : Cursor} {t : List Char} {p : Position}
    (hc : c.skipBlanks = ⟨',' :: t, p⟩) {s : List Char} {q : Position}
    (ht : (Cursor.mk t (p.past ',')).skipBlanks = ⟨'"' :: s, q⟩) :
    nextKey? false c = .ok (some ⟨'"' :: s, q⟩) := by
  have hnext : (Cursor.mk (',' :: t) p).next = ⟨t, p.past ','⟩ := rfl
  unfold nextKey?
  simp only [hc, hnext, ht]
  rfl

theorem readMembers_end (fuel : Nat) (first : Bool) (seen : List (String × Json)) {c : Cursor}
    {t : List Char} {p : Position} (hc : c.skipBlanks = ⟨'\x7d' :: t, p⟩) :
    readMembers (fuel + 1) first seen c = .ok (seen, ⟨t, p.past '\x7d'⟩) := by
  have hnext : nextKey? first c = .ok none := by
    unfold nextKey?
    simp only [hc, if_true]
  rw [readMembers, hnext]
  simp only [hc]
  rfl

theorem stringText_append (s : String) (t : List Char) :
    stringText s ++ t = '"' :: (s.toList.flatMap escaped ++ '"' :: t) := by
  rw [stringText, List.cons_append, List.cons_append, List.append_assoc]
  rfl

/-- The value of a member is read behind its key, a colon, and a blank. -/
theorem readMembers_member {fuel : Nat} {first : Bool} {c : Cursor} {key : String}
    {t : List Char} {p : Position}
    (hc : nextKey? first c = .ok (some ⟨stringText key ++ (':' :: ' ' :: t), p⟩))
    (hf : (stringText key).length ≤ fuel + 2) {v : Json} {s : List Char}
    (hv : ∀ q, ∃ b q', AllBlank b ∧ readValue (fuel + 1) ⟨t, q⟩ = .ok (v, ⟨b ++ s, q'⟩))
    (seen : List (String × Json)) :
    ∃ b q, AllBlank b ∧ readMembers (fuel + 2) first seen c =
      readMembers (fuel + 1) false (insertMember key v seen) ⟨b ++ s, q⟩ := by
  obtain ⟨q₁, hkey⟩ := readString_stringText key (fuel + 1) hf (':' :: ' ' :: t) (p.past '"')
  have hcolon : readColon ⟨':' :: ' ' :: t, q₁⟩ = .ok ⟨' ' :: t, q₁.past ':'⟩ := rfl
  have hblank : AllBlank [' '] := by
    intro x hx
    obtain rfl := List.mem_singleton.1 hx
    rfl
  obtain ⟨q₂, hspace⟩ := readValue_append hblank t fuel (q₁.past ':')
  obtain ⟨b, q₃, hb, hvalue⟩ := hv q₂
  refine ⟨b, q₃, hb, ?_⟩
  have hnext : (Cursor.mk (stringText key ++ (':' :: ' ' :: t)) p).next =
      ⟨key.toList.flatMap escaped ++ '"' :: ':' :: ' ' :: t, p.past '"'⟩ := by
    rw [stringText_append]
    rfl
  have hspace' : readValue (fuel + 1) ⟨' ' :: t, q₁.past ':'⟩ = .ok (v, ⟨b ++ s, q₃⟩) :=
    hspace.trans hvalue
  rw [readMembers, hc]
  simp only [hnext, hkey, hcolon, hspace']

/-- The first member of an object is read where the object starts. -/
theorem readMembers_first {fuel : Nat} (key : String) {t : List Char}
    (hf : (stringText key).length ≤ fuel + 2) {v : Json} {s : List Char}
    (hv : ∀ q, ∃ b q', AllBlank b ∧ readValue (fuel + 1) ⟨t, q⟩ = .ok (v, ⟨b ++ s, q'⟩))
    {b : List Char} (hb : AllBlank b) (seen : List (String × Json)) (p : Position) :
    ∃ b' q, AllBlank b' ∧
      readMembers (fuel + 2) true seen ⟨b ++ (stringText key ++ (':' :: ' ' :: t)), p⟩ =
        readMembers (fuel + 1) false (insertMember key v seen) ⟨b' ++ s, q⟩ := by
  obtain ⟨q, hskip⟩ := skipBlanks_append hb (x := '"') (by decide)
    (key.toList.flatMap escaped ++ '"' :: (':' :: ' ' :: t)) p
  have hkey := nextKey?_first hskip
  rw [← stringText_append] at hkey
  exact readMembers_member hkey hf hv seen

/-- Every other member is read behind a comma. -/
theorem readMembers_comma {fuel : Nat} (key : String) {t : List Char}
    (hf : (stringText key).length ≤ fuel + 2) {v : Json} {s : List Char}
    (hv : ∀ q, ∃ b q', AllBlank b ∧ readValue (fuel + 1) ⟨t, q⟩ = .ok (v, ⟨b ++ s, q'⟩))
    {b b₁ : List Char} (hb : AllBlank b) (hb₁ : AllBlank b₁) (seen : List (String × Json))
    (p : Position) :
    ∃ b' q, AllBlank b' ∧
      readMembers (fuel + 2) false seen
          ⟨b ++ ',' :: (b₁ ++ (stringText key ++ (':' :: ' ' :: t))), p⟩ =
        readMembers (fuel + 1) false (insertMember key v seen) ⟨b' ++ s, q⟩ := by
  obtain ⟨q, hskip⟩ := skipBlanks_append hb (x := ',') (by decide)
    (b₁ ++ '"' :: (key.toList.flatMap escaped ++ '"' :: (':' :: ' ' :: t))) p
  obtain ⟨q₁, hskip₁⟩ := skipBlanks_append hb₁ (x := '"') (by decide)
    (key.toList.flatMap escaped ++ '"' :: (':' :: ' ' :: t)) (q.past ',')
  have hkey := nextKey?_comma hskip hskip₁
  rw [← stringText_append] at hkey
  exact readMembers_member hkey hf hv seen

/-! ### Simple values -/

theorem readValue_null (fuel : Nat) (r : List Char) (p : Position) :
    ∃ q, readValue (fuel + 1) ⟨"null".toList ++ r, p⟩ = .ok (.null, ⟨r, q⟩) := ⟨_, rfl⟩

theorem readValue_bool (b : Bool) (fuel : Nat) (r : List Char) (p : Position) :
    ∃ q, readValue (fuel + 1) ⟨(if b then "true" else "false").toList ++ r, p⟩ =
      .ok (.bool b, ⟨r, q⟩) := by
  cases b with
  | true => exact ⟨_, rfl⟩
  | false => exact ⟨_, rfl⟩

theorem readSimple_quote (fuel : Nat) (t : List Char) (p : Position) :
    readSimple fuel ⟨'"' :: t, p⟩ =
      match readString fuel ⟨t, p.past '"'⟩ with
      | .ok (s, c) => .ok (.string s, c)
      | .error e => .error e := rfl

theorem readValue_string (s : String) (fuel : Nat) (hf : (stringText s).length ≤ fuel + 1)
    (r : List Char) (p : Position) :
    ∃ q, readValue (fuel + 1) ⟨stringText s ++ r, p⟩ = .ok (.string s, ⟨r, q⟩) := by
  obtain ⟨q, hq⟩ := readString_stringText s fuel hf r (p.past '"')
  refine ⟨q, ?_⟩
  rw [stringText_append]
  have hskip : (Cursor.mk ('"' :: (s.toList.flatMap escaped ++ '"' :: r)) p).skipBlanks =
      ⟨'"' :: (s.toList.flatMap escaped ++ '"' :: r), p⟩ :=
    skipFrom_cons_of_not_isBlank (by decide) p _
  rw [readValue_of_skipBlanks hskip (by decide) (by decide), readSimple_quote, hq]

/-! ### Values -/

theorem Number.ReadsBack.length_pos {n : Number} (hn : n.ReadsBack) :
    0 < (numberText n).length := by
  have hread : Json.read (numberText n) = .ok (.number n) := hn
  cases ht : numberText n with
  | nil =>
    rw [ht] at hread
    cases hread
  | cons x t => exact Nat.succ_pos _

theorem prettyAt_array_append (level : Nat) (v : Json) (vs : List Json) (r : List Char) :
    prettyAt level (.array (v :: vs)) ++ r =
      '[' :: (newline (level + 1) ++ (prettyAt (level + 1) v ++
        (prettyItems (level + 1) vs ++ (newline level ++ ']' :: r)))) := by
  simp only [prettyAt, List.cons_append, List.append_assoc, List.nil_append]

theorem prettyItems_append (level : Nat) (v : Json) (vs : List Json) (r : List Char) :
    prettyItems level (v :: vs) ++ r =
      ',' :: (newline level ++ (prettyAt level v ++ (prettyItems level vs ++ r))) := by
  simp only [prettyItems, List.cons_append, List.append_assoc]

theorem prettyAt_object_append (level : Nat) (k : String) (v : Json) (ms : List (String × Json))
    (r : List Char) :
    prettyAt level (.object ((k, v) :: ms)) ++ r =
      '\x7b' :: (newline (level + 1) ++ (stringText k ++ (':' :: ' ' :: (prettyAt (level + 1) v ++
        (prettyMembers (level + 1) ms ++ (newline level ++ '\x7d' :: r)))))) := by
  have hcolon : ": ".toList = [':', ' '] := rfl
  simp only [prettyAt, hcolon, List.cons_append, List.append_assoc, List.nil_append]

theorem prettyMembers_append (level : Nat) (k : String) (v : Json) (ms : List (String × Json))
    (r : List Char) :
    prettyMembers level ((k, v) :: ms) ++ r =
      ',' :: (newline level ++ (stringText k ++ (':' :: ' ' :: (prettyAt level v ++
        (prettyMembers level ms ++ r))))) := by
  have hcolon : ": ".toList = [':', ' '] := rfl
  simp only [prettyMembers, hcolon, List.cons_append, List.append_assoc, List.nil_append]

/-- Behind an item there is nothing that belongs to a number. -/
theorem endsNumber_prettyItems (level outer : Nat) (vs : List Json) (r : List Char) :
    EndsNumber (prettyItems level vs ++ (newline outer ++ r)) := by
  cases vs with
  | nil => exact endsNumber_newline outer r
  | cons v vs =>
    rw [prettyItems_append]
    exact endsNumber_comma _

/-- Behind the value of a member there is nothing that belongs to a number. -/
theorem endsNumber_prettyMembers (level outer : Nat) (ms : List (String × Json))
    (r : List Char) : EndsNumber (prettyMembers level ms ++ (newline outer ++ r)) := by
  cases ms with
  | nil => exact endsNumber_newline outer r
  | cons m ms =>
    rw [prettyMembers_append]
    exact endsNumber_comma _

mutual

/-- **Values inside a document.**

A value is read where it was written, at any level and in front of any text that ends a number, in
as many steps as its text has characters. -/
theorem readValue_prettyAt : ∀ (v : Json) (level fuel : Nat) (r : List Char) (p : Position),
    (∀ n ∈ v.numbers, n.ReadsBack) → EndsNumber r → (prettyAt level v).length ≤ fuel →
    ∃ b q, AllBlank b ∧ readValue fuel ⟨prettyAt level v ++ r, p⟩ = .ok (v.sorted, ⟨b ++ r, q⟩)
  | .null, level, fuel, r, p, _, _, hf => by
    rw [prettyAt] at hf ⊢
    have hpos : 1 ≤ fuel := Nat.le_trans (by decide) hf
    obtain ⟨fuel, rfl⟩ : ∃ m, fuel = m + 1 := ⟨fuel - 1, by omega⟩
    obtain ⟨q, hq⟩ := readValue_null fuel r p
    exact ⟨[], q, allBlank_nil, hq⟩
  | .bool b, level, fuel, r, p, _, _, hf => by
    rw [prettyAt] at hf ⊢
    have hpos : 1 ≤ fuel := by
      refine Nat.le_trans ?_ hf
      cases b <;> decide
    obtain ⟨fuel, rfl⟩ : ∃ m, fuel = m + 1 := ⟨fuel - 1, by omega⟩
    obtain ⟨q, hq⟩ := readValue_bool b fuel r p
    exact ⟨[], q, allBlank_nil, hq⟩
  | .number n, level, fuel, r, p, hn, hr, hf => by
    have hback : n.ReadsBack := hn n (List.mem_singleton.2 rfl)
    have hpos : 1 ≤ fuel := Nat.le_trans hback.length_pos hf
    obtain ⟨fuel, rfl⟩ : ∃ m, fuel = m + 1 := ⟨fuel - 1, by omega⟩
    exact hback.readValue hr fuel p
  | .string s, level, fuel, r, p, _, _, hf => by
    have hpos : 1 ≤ fuel := Nat.le_trans (Nat.succ_pos _) hf
    obtain ⟨fuel, rfl⟩ : ∃ m, fuel = m + 1 := ⟨fuel - 1, by omega⟩
    obtain ⟨q, hq⟩ := readValue_string s fuel hf r p
    exact ⟨[], q, allBlank_nil, hq⟩
  | .array [], level, fuel, r, p, _, _, hf => by
    have hpos : 2 ≤ fuel := hf
    obtain ⟨fuel, rfl⟩ : ∃ m, fuel = m + 2 := ⟨fuel - 2, by omega⟩
    exact ⟨[], _, allBlank_nil, rfl⟩
  | .array (v :: vs), level, fuel, r, p, hn, hr, hf => by
    have hlength := congrArg List.length (prettyAt_array_append level v vs [])
    simp only [List.length_append, List.length_cons, List.length_nil, newline] at hlength
    obtain ⟨fuel, rfl⟩ : ∃ m, fuel = m + 3 := ⟨fuel - 3, by omega⟩
    -- the reader stands behind the bracket; the first item has no comma in front of it
    have hskip := skipBlanks_append allBlank_nil (x := '[') (by decide)
    obtain ⟨q, hskip⟩ := hskip (newline (level + 1) ++ (prettyAt (level + 1) v ++
      (prettyItems (level + 1) vs ++ (newline level ++ ']' :: r)))) p
    obtain ⟨b, q₁, hb, hfirst⟩ := readItems_first
      (fun q => readValue_prettyAt v (level + 1) (fuel + 1)
        (prettyItems (level + 1) vs ++ (newline level ++ ']' :: r)) q
        (fun n h => hn n (List.mem_append_left _ h)) (endsNumber_prettyItems _ _ vs _) (by omega))
      (allBlank_newline (level + 1)) (q.past '[')
    obtain ⟨q₂, hrest⟩ := readItems_prettyItems vs (level + 1) level (fuel + 1) b r q₁
      (fun n h => hn n (List.mem_append_right _ h)) hb (by omega)
    refine ⟨[], q₂, allBlank_nil, ?_⟩
    rw [prettyAt_array_append]
    rw [List.nil_append] at hskip
    rw [readValue_array (fuel + 2) hskip, hfirst _ _ hrest]
    rfl
  | .object [], level, fuel, r, p, _, _, hf => by
    have hpos : 2 ≤ fuel := hf
    obtain ⟨fuel, rfl⟩ : ∃ m, fuel = m + 2 := ⟨fuel - 2, by omega⟩
    exact ⟨[], _, allBlank_nil, rfl⟩
  | .object ((k, v) :: ms), level, fuel, r, p, hn, hr, hf => by
    have hlength := congrArg List.length (prettyAt_object_append level k v ms [])
    simp only [List.length_append, List.length_cons, List.length_nil, newline] at hlength
    obtain ⟨fuel, rfl⟩ : ∃ m, fuel = m + 3 := ⟨fuel - 3, by omega⟩
    have hskip := skipBlanks_append allBlank_nil (x := '\x7b') (by decide)
    obtain ⟨q, hskip⟩ := hskip (newline (level + 1) ++ (stringText k ++ (':' :: ' ' ::
      (prettyAt (level + 1) v ++ (prettyMembers (level + 1) ms ++
        (newline level ++ '\x7d' :: r)))))) p
    obtain ⟨b, q₁, hb, hfirst⟩ := readMembers_first k (by omega)
      (fun q => readValue_prettyAt v (level + 1) (fuel + 1)
        (prettyMembers (level + 1) ms ++ (newline level ++ '\x7d' :: r)) q
        (fun n h => hn n (List.mem_append_left _ h)) (endsNumber_prettyMembers _ _ ms _)
        (by omega))
      (allBlank_newline (level + 1)) [] (q.past '\x7b')
    obtain ⟨q₂, hrest⟩ := readMembers_prettyMembers ms (level + 1) level (fuel + 1)
      (insertMember k v.sorted []) b r q₁ (fun n h => hn n (List.mem_append_right _ h)) hb
      (by omega)
    refine ⟨[], q₂, allBlank_nil, ?_⟩
    rw [prettyAt_object_append]
    rw [List.nil_append] at hskip
    rw [readValue_object (fuel + 2) hskip, hfirst, hrest]
    rfl

/-- The items of an array behind its first are read where they were written. -/
theorem readItems_prettyItems : ∀ (vs : List Json) (level outer fuel : Nat) (b r : List Char)
    (p : Position), (∀ n ∈ numbersOfItems vs, n.ReadsBack) → AllBlank b →
    (prettyItems level vs).length + 1 ≤ fuel →
    ∃ q, readItems fuel false ⟨b ++ (prettyItems level vs ++ (newline outer ++ ']' :: r)), p⟩ =
      .ok (sortedItems vs, ⟨r, q⟩)
  | [], level, outer, fuel, b, r, p, _, hb, hf => by
    obtain ⟨fuel, rfl⟩ : ∃ m, fuel = m + 1 := ⟨fuel - 1, by omega⟩
    obtain ⟨q, hq⟩ := skipBlanks_append (hb.append (allBlank_newline outer))
      (x := ']') (by decide) r p
    refine ⟨q.past ']', ?_⟩
    rw [prettyItems, List.nil_append, ← List.append_assoc]
    exact readItems_end fuel false hq
  | v :: vs, level, outer, fuel, b, r, p, hn, hb, hf => by
    have hlength := congrArg List.length (prettyItems_append level v vs [])
    simp only [List.length_append, List.length_cons, List.length_nil, newline] at hlength
    obtain ⟨fuel, rfl⟩ : ∃ m, fuel = m + 2 := ⟨fuel - 2, by omega⟩
    obtain ⟨b', q, hb', hcomma⟩ := readItems_comma
      (fun q => readValue_prettyAt v level (fuel + 1)
        (prettyItems level vs ++ (newline outer ++ ']' :: r)) q
        (fun n h => hn n (List.mem_append_left _ h)) (endsNumber_prettyItems _ _ vs _) (by omega))
      hb (allBlank_newline level) p
    obtain ⟨q', hrest⟩ := readItems_prettyItems vs level outer (fuel + 1) b' r q
      (fun n h => hn n (List.mem_append_right _ h)) hb' (by omega)
    refine ⟨q', ?_⟩
    rw [prettyItems_append]
    exact hcomma _ _ hrest

/-- The members of an object behind its first are read where they were written. -/
theorem readMembers_prettyMembers : ∀ (ms : List (String × Json)) (level outer fuel : Nat)
    (seen : List (String × Json)) (b r : List Char) (p : Position),
    (∀ n ∈ numbersOfMembers ms, n.ReadsBack) → AllBlank b →
    (prettyMembers level ms).length + 1 ≤ fuel →
    ∃ q, readMembers fuel false seen
        ⟨b ++ (prettyMembers level ms ++ (newline outer ++ '\x7d' :: r)), p⟩ =
      .ok (sortedMembers seen ms, ⟨r, q⟩)
  | [], level, outer, fuel, seen, b, r, p, _, hb, hf => by
    obtain ⟨fuel, rfl⟩ : ∃ m, fuel = m + 1 := ⟨fuel - 1, by omega⟩
    obtain ⟨q, hq⟩ := skipBlanks_append (hb.append (allBlank_newline outer))
      (x := '\x7d') (by decide) r p
    refine ⟨q.past '\x7d', ?_⟩
    rw [prettyMembers, List.nil_append, ← List.append_assoc]
    exact readMembers_end fuel false seen hq
  | (k, v) :: ms, level, outer, fuel, seen, b, r, p, hn, hb, hf => by
    have hlength := congrArg List.length (prettyMembers_append level k v ms [])
    simp only [List.length_append, List.length_cons, List.length_nil, newline] at hlength
    obtain ⟨fuel, rfl⟩ : ∃ m, fuel = m + 2 := ⟨fuel - 2, by omega⟩
    obtain ⟨b', q, hb', hcomma⟩ := readMembers_comma k (by omega)
      (fun q => readValue_prettyAt v level (fuel + 1)
        (prettyMembers level ms ++ (newline outer ++ '\x7d' :: r)) q
        (fun n h => hn n (List.mem_append_left _ h)) (endsNumber_prettyMembers _ _ ms _)
        (by omega))
      hb (allBlank_newline level) seen p
    obtain ⟨q', hrest⟩ := readMembers_prettyMembers ms level outer (fuel + 1)
      (insertMember k v.sorted seen) b' r q (fun n h => hn n (List.mem_append_right _ h)) hb'
      (by omega)
    refine ⟨q', ?_⟩
    rw [prettyMembers_append, hcomma, hrest]
    rfl

end

/-- **Reading what was written.**

A value that was written over several lines is read again, with the members of its objects sorted by
key, as soon as each of its numbers is read from its own text. -/
theorem read_pretty (v : Json) (hn : ∀ n ∈ v.numbers, n.ReadsBack) :
    read (pretty v) = .ok v.sorted := by
  obtain ⟨b, q, hb, hq⟩ := readValue_prettyAt v 0 (stepsFor (pretty v)) [] ⟨1, 0⟩ hn
    endsNumber_nil (by
      show (pretty v).length ≤ 2 * (pretty v).length + 2
      omega)
  rw [List.append_nil, List.append_nil] at hq
  have hvalue : readValue (stepsFor (pretty v)) (Cursor.start (pretty v)) =
      .ok (v.sorted, ⟨b, q⟩) := hq
  unfold read
  simp only [hvalue, readEnd_of_allBlank hb q]

end Json
end SceneMarkup
