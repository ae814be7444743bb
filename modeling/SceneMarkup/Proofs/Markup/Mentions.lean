import SceneMarkup.Proofs.Markup.ClassAttributes
import SceneMarkup.Proofs.Markup.QuotedAttributes
import SceneMarkup.Proofs.Text.Caseless

/-!
# Mentions of classes

The rules of markup read class attributes in different ways.  The rule of class names and the list
of class names want a blank, the word `class` in small letters and a value in quotes; the rules for
icons take the word in any case and a value without quotes too.  A mention is what the widest of
these readings finds: the word `class` in any case at the start of a name, and an equals sign.

A mention is read from the text behind it only as far as the next angle bracket or equals sign, so
that what a rule does behind such a character cannot change it.

## Main definitions

* `ClassValue`, `classValue` — how the value of a mention is written.
* `Mention`, `mention?`, `mentions` — the mentions of classes in a markup.
* `Seals` — a text in front of which mentions are read without regard to the rest of it.

## Main results

* `mention?_cons_eq_some_iff` — what a mention looks like.
* `classValue_append` — how far a value is read.
* `exists_mentions_append` — **the mentions in front of two texts that both seal and start alike are
  the same.**
* `mem_mentions_append` — the mentions in front of two texts that both seal differ in bare values.
* `mentions_cut` — an angle bracket divides the mentions of a text.
-/

namespace SceneMarkup
namespace Markup

open Text

/-! ### Mentions -/

/-- Whether a character may stand in a value between quotes that no reader misunderstands. -/
def isPlainChar (c : Char) : Bool := !(isQuote c || c == '<' || c == '>' || c == '=')

/-- How the value of a class is written. -/
inductive ClassValue where
  /-- Plain characters between two equal quotes. -/
  | quoted (value : List Char)
  /-- Without quotes. -/
  | bare (value : List Char)
  /-- With a quote in front, and not closed by the same one behind plain characters. -/
  | torn
  deriving Repr, DecidableEq

/-- The value at the start of a text. -/
def classValue : List Char → ClassValue
  | [] => .bare []
  | q :: s =>
    if isQuote q then
      if (s.dropWhile isPlainChar).head? = some q then .quoted (s.takeWhile isPlainChar) else .torn
    else .bare ((q :: s).takeWhile isBareChar)

/-- The text of a value. -/
def ClassValue.text : ClassValue → List Char
  | .quoted v | .bare v => v
  | .torn => []

/-- A place where a markup speaks of classes. -/
structure Mention where
  /-- Whether a blank stands in front. -/
  spaced : Bool
  /-- The word `class` as it is written. -/
  word : List Char
  /-- The value. -/
  value : ClassValue
  deriving Repr, DecidableEq

/-- A mention behind the first character of a text, which belongs to no name. -/
def mention? : List Char → Option Mention
  | [] => none
  | c :: s =>
    if isNameChar c then none
    else if sameAscii (s.take 5) "class".toList then
      match trimStart (s.drop 5) with
      | '=' :: r => some ⟨isBlank c, s.take 5, classValue (trimStart r)⟩
      | _ => none
    else none

/-- The mentions of classes in a markup, from left to right. -/
def mentions : List Char → List Mention
  | [] => []
  | c :: s => (mention? (c :: s)).toList ++ mentions s

@[simp] theorem mentions_nil : mentions [] = [] := rfl

theorem mentions_cons (c : Char) (s : List Char) :
    mentions (c :: s) = (mention? (c :: s)).toList ++ mentions s := rfl

theorem mentions_cons_of_none {c : Char} {s : List Char} (h : mention? (c :: s) = none) :
    mentions (c :: s) = mentions s := by rw [mentions_cons, h, Option.toList_none, List.nil_append]

theorem mentions_cons_of_some {c : Char} {s : List Char} {m : Mention}
    (h : mention? (c :: s) = some m) : mentions (c :: s) = m :: mentions s := by
  rw [mentions_cons, h, Option.toList_some, List.singleton_append]

/-- The mentions of the end of a text are among those of the text. -/
theorem mem_mentions_append_right (x : List Char) {z : List Char} {m : Mention}
    (h : m ∈ mentions z) : m ∈ mentions (x ++ z) := by
  induction x with
  | nil => exact h
  | cons c x ih => exact List.mem_append_right _ ih

/-! ### What a mention looks like -/

/-- What is checked of the letters of the word `class` in either case holds of all its letters. -/
theorem forall_mem_of_sameAscii {P : Char → Prop}
    (h : ∀ n < 0x80, (Char.ofNat n).toLower ∈ "class".toList → P (Char.ofNat n)) {k : List Char}
    (hk : sameAscii k "class".toList = true) : ∀ c ∈ k, P c := by
  have hmap : k.map Char.toLower = "class".toList := by simpa [sameAscii] using hk
  have hletters : ∀ d ∈ "class".toList, d.toNat < 0x80 := forall_mem_of_all (by decide)
  intro c hc
  have hmem : c.toLower ∈ "class".toList := by
    rw [← hmap]
    exact List.mem_map_of_mem hc
  have hascii : c.toNat < 0x80 := by
    by_contra hn
    rw [toLower_of_not_ascii hn] at hmem
    exact hn (hletters c hmem)
  exact forall_ascii (P := fun c => c.toLower ∈ "class".toList → P c) h hascii hmem

theorem isNameChar_of_sameAscii {k : List Char} (h : sameAscii k "class".toList = true) :
    ∀ c ∈ k, isNameChar c = true :=
  forall_mem_of_sameAscii (by decide) h

theorem isBareChar_of_sameAscii {k : List Char} (h : sameAscii k "class".toList = true) :
    ∀ c ∈ k, isBareChar c = true :=
  forall_mem_of_sameAscii (by decide) h

theorem length_of_sameAscii {k : List Char} (h : sameAscii k "class".toList = true) :
    k.length = 5 := by
  have hmap : k.map Char.toLower = "class".toList := by simpa [sameAscii] using h
  simpa using congrArg List.length hmap

/-- A mention is the word `class` in any case behind a character of no name, blanks, an equals sign,
and a value. -/
theorem mention?_cons_eq_some_iff {c : Char} {s : List Char} {m : Mention} :
    mention? (c :: s) = some m ↔ isNameChar c = false ∧ ∃ k w r, s = k ++ (w ++ '=' :: r) ∧
      sameAscii k "class".toList = true ∧ (∀ b ∈ w, isBlank b = true) ∧
      m = ⟨isBlank c, k, classValue (trimStart r)⟩ := by
  rw [mention?]
  constructor
  · intro h
    split at h
    · cases h
    · next hc =>
      split at h
      · next hk =>
        split at h
        · next r hr =>
          obtain ⟨w, hw, hs⟩ := exists_blanks_append_trimStart (s.drop 5)
          rw [hr] at hs
          refine ⟨by simpa using hc, s.take 5, w, r, ?_, hk, hw, (Option.some.inj h).symm⟩
          rw [← hs, List.take_append_drop]
        · cases h
      · cases h
  · rintro ⟨hc, k, w, r, rfl, hk, hw, rfl⟩
    have hlen := length_of_sameAscii hk
    have htake : (k ++ (w ++ '=' :: r)).take 5 = k := by rw [← hlen, List.take_left]
    have hdrop : (k ++ (w ++ '=' :: r)).drop 5 = w ++ '=' :: r := by rw [← hlen, List.drop_left]
    rw [if_neg (by simp [hc]), htake, if_pos hk, hdrop, trimStart_blanks_append hw (by decide)]
    rfl

theorem mention?_of_isNameChar {c : Char} (h : isNameChar c = true) (s : List Char) :
    mention? (c :: s) = none := by rw [mention?, if_pos h]

/-- The word starts with a `c`. -/
theorem mention?_of_head? {s : List Char} (h : ∀ d ∈ s.head?, d.toLower ≠ 'c') (c : Char) :
    mention? (c :: s) = none := by
  rw [Option.eq_none_iff_forall_ne_some]
  intro m hm
  obtain ⟨-, k, w, r, rfl, hk, -⟩ := mention?_cons_eq_some_iff.1 hm
  have hmap : k.map Char.toLower = "class".toList := by simpa [sameAscii] using hk
  cases k with
  | nil => cases hmap
  | cons d k =>
    have hd : d.toLower = 'c' := (List.cons.inj hmap).1
    exact h d rfl hd

theorem toLower_ne_of_not_isNameChar {c : Char} (h : isNameChar c = false) : c.toLower ≠ 'c' := by
  intro hc
  have hascii : c.toNat < 0x80 := by
    by_contra hn
    rw [toLower_of_not_ascii hn] at hc
    rw [hc] at hn
    exact hn (by decide)
  exact forall_ascii (P := fun c => isNameChar c = false → c.toLower = 'c' → False) (by decide)
    hascii h hc

theorem not_isNameChar_of_isQuote {q : Char} (h : isQuote q = true) : isNameChar q = false := by
  simp [isNameChar, h]

theorem not_isBlank_of_isQuote {q : Char} (h : isQuote q = true) : isBlank q = false := by
  rcases eq_quote_or_eq_tick h with rfl | rfl <;> decide

theorem toLower_ne_of_mem_head? {c : Char} (h : c.toLower ≠ 'c') (s : List Char) :
    ∀ d ∈ (c :: s).head?, d.toLower ≠ 'c' := by
  rintro d ⟨⟩
  exact h

/-- No mention stands in a text without the letter that the word starts with. -/
theorem mentions_append_of_toLower_ne {y z : List Char} (hy : ∀ d ∈ y, d.toLower ≠ 'c')
    (hz : ∀ d ∈ z.head?, d.toLower ≠ 'c') : mentions (y ++ z) = mentions z := by
  induction y with
  | nil => rfl
  | cons c y ih =>
    have hy' : ∀ d ∈ y, d.toLower ≠ 'c' := fun d hd => hy d (List.mem_cons_of_mem _ hd)
    rw [List.cons_append, mentions_cons_of_none, ih hy']
    refine mention?_of_head? ?_ c
    cases y with
    | nil => exact hz
    | cons d y =>
      intro e he
      obtain rfl : d = e := Option.some.inj he
      exact hy' d List.mem_cons_self

/-- No mention starts behind a name character. -/
theorem mentions_append_of_isNameChar {n : List Char} (hn : ∀ c ∈ n, isNameChar c = true)
    (z : List Char) : mentions (n ++ z) = mentions z := by
  induction n with
  | nil => rfl
  | cons c n ih =>
    have hc := hn c List.mem_cons_self
    rw [List.cons_append, mentions_cons_of_none (mention?_of_isNameChar hc _),
      ih fun d hd => hn d (List.mem_cons_of_mem _ hd)]

/-! ### Texts that seal -/

/-- A text behind which no reader of a mention in front of it looks: it does not go on with an
equals sign, and its first character that is not plain is no quote. -/
structure Seals (z : List Char) : Prop where
  /-- No equals sign follows, blanks disregarded. -/
  assigned : (trimStart z).head? ≠ some '='
  /-- No value between quotes ends in the text. -/
  closed : ∀ c ∈ (z.dropWhile isPlainChar).head?, isQuote c = false

theorem isPlainChar_of_isBlank {c : Char} (h : isBlank c = true) : isPlainChar c = true := by
  rw [isPlainChar, Bool.not_eq_true']
  cases hp : isQuote c || c == '<' || c == '>' || c == '=' with
  | false => rfl
  | true =>
    simp only [isQuote, Bool.or_eq_true, beq_iff_eq] at hp
    rcases hp with (((rfl | rfl) | rfl) | rfl) | rfl <;> exact absurd h (by decide)

theorem isPlainChar_of_isNameChar {c : Char} (h : isNameChar c = true) : isPlainChar c = true := by
  simp only [isNameChar, Bool.not_eq_true', Bool.or_eq_false_iff] at h
  simp [isPlainChar, h]

/-- A value that starts in a text that seals is bare. -/
theorem Seals.classValue_trimStart {z : List Char} (h : Seals z) :
    classValue (trimStart z) = .bare ((trimStart z).takeWhile isBareChar) := by
  obtain ⟨w, hw, hz⟩ := exists_blanks_append_trimStart z
  cases hs : trimStart z with
  | nil => rfl
  | cons q s =>
    have hq : isQuote q = false := by
      cases hq : isQuote q with
      | false => rfl
      | true =>
        have hplain : isPlainChar q = false := by simp [isPlainChar, hq]
        have hclosed := h.closed q
        rw [hz, hs, List.dropWhile_append_of_pos fun c hc => isPlainChar_of_isBlank (hw c hc),
          List.dropWhile_cons_of_neg (by simp [hplain])] at hclosed
        rw [← hq, hclosed rfl]
    rw [classValue, if_neg (by simp [hq])]

/-- The value behind a text is settled in the text, or it is bare and reaches into what follows, or
it is bare and starts there. -/
theorem classValue_append (s : List Char) :
    (∃ v, ∀ z, Seals z → classValue (trimStart (s ++ z)) = v) ∨
      (∃ p, ∀ z, Seals z →
        classValue (trimStart (s ++ z)) = .bare (p ++ z.takeWhile isBareChar)) ∨
      ∀ z, Seals z →
        classValue (trimStart (s ++ z)) = .bare ((trimStart z).takeWhile isBareChar) := by
  have htrim : ∀ z, trimStart (s ++ z) =
      if (trimStart s).isEmpty then trimStart z else trimStart s ++ z :=
    fun z => List.dropWhile_append
  cases hs : trimStart s with
  | nil =>
    refine Or.inr (Or.inr fun z hz => ?_)
    rw [htrim, hs]
    exact hz.classValue_trimStart
  | cons q s' =>
    have htext : ∀ z, trimStart (s ++ z) = q :: (s' ++ z) := fun z => by rw [htrim, hs]; rfl
    cases hq : isQuote q with
    | true =>
      refine Or.inl ?_
      cases hd : s'.dropWhile isPlainChar with
      | nil =>
        -- the quote is not closed in front of the seal, and what stands there is another character
        refine ⟨.torn, fun z hz => ?_⟩
        have hne : (z.dropWhile isPlainChar).head? ≠ some q := by
          intro h
          have := hz.closed q h
          rw [hq] at this
          cases this
        rw [htext, classValue, if_pos hq, List.dropWhile_append, hd, if_pos List.isEmpty_nil,
          if_neg hne]
      | cons d t =>
        refine ⟨classValue (q :: s'), fun z _ => ?_⟩
        have htake : (s' ++ z).takeWhile isPlainChar = s'.takeWhile isPlainChar := by
          rw [List.takeWhile_append, if_neg]
          intro hlen
          have hall := List.takeWhile_append_dropWhile (p := isPlainChar) (l := s')
          have := congrArg List.length hall
          rw [hd, List.length_append, hlen, List.length_cons] at this
          omega
        rw [htext, classValue, classValue, if_pos hq, if_pos hq, List.dropWhile_append, hd, htake]
        rfl
    | false =>
      have hbare : ∀ r, classValue (q :: r) = .bare ((q :: r).takeWhile isBareChar) :=
        fun r => by rw [classValue, if_neg (by simp [hq])]
      by_cases hlen : ((q :: s').takeWhile isBareChar).length = (q :: s').length
      · refine Or.inr (Or.inl ⟨q :: s', fun z _ => ?_⟩)
        rw [htext, hbare, ← List.cons_append, List.takeWhile_append, if_pos hlen]
      · refine Or.inl ⟨.bare ((q :: s').takeWhile isBareChar), fun z _ => ?_⟩
        rw [htext, hbare, ← List.cons_append, List.takeWhile_append, if_neg hlen]

/-- A name does not go on from one text into the next. -/
def IsParted (u z : List Char) : Prop :=
  (∀ d ∈ z.head?, isNameChar d = false) ∨ ∃ b ∈ u.getLast?, isNameChar b = false

/-- A mention in front of a text that seals is all there up to its value. -/
theorem mention?_append_eq_some_iff {c : Char} {u z : List Char} {m : Mention} (hu : IsParted u z)
    (hz : Seals z) :
    mention? (c :: (u ++ z)) = some m ↔ isNameChar c = false ∧ ∃ k w s, u = k ++ (w ++ '=' :: s) ∧
      sameAscii k "class".toList = true ∧ (∀ b ∈ w, isBlank b = true) ∧
      m = ⟨isBlank c, k, classValue (trimStart (s ++ z))⟩ := by
  have hsign : ∀ w r, (∀ b ∈ w, isBlank b = true) → z ≠ w ++ '=' :: r := by
    rintro w r hw rfl
    exact hz.assigned (by rw [trimStart_blanks_append hw (by decide)]; rfl)
  rw [mention?_cons_eq_some_iff]
  refine and_congr_right fun _ => ⟨?_, ?_⟩
  · rintro ⟨k, w, r, h, hk, hw, rfl⟩
    rcases List.append_eq_append_iff.1 h with ⟨a, rfl, ha⟩ | ⟨a, rfl, ha⟩
    · -- the word would go on behind the seam
      cases a with
      | nil => exact absurd ha (hsign w r hw)
      | cons d a =>
        have hname := isNameChar_of_sameAscii hk
        rcases hu with hu | ⟨b, hb, hbname⟩
        · have := hu d (by rw [ha]; rfl)
          rw [hname d (by simp)] at this
          cases this
        · rw [hname b (List.mem_append_left _ (List.mem_of_getLast? hb))] at hbname
          cases hbname
    · rcases List.append_eq_append_iff.1 ha with ⟨s, rfl, hs⟩ | ⟨w', rfl, hw'⟩
      · cases s with
        | nil => exact absurd hs.symm (hsign [] r (by simp))
        | cons e s =>
          obtain ⟨rfl, rfl⟩ := List.cons.inj hs
          exact ⟨k, w, s, rfl, hk, hw, rfl⟩
      · exact absurd hw' (hsign w' r fun b hb => hw b (List.mem_append_right _ hb))
  · rintro ⟨k, w, s, rfl, hk, hw, rfl⟩
    exact ⟨k, w, s ++ z, by simp, hk, hw, rfl⟩

/-- Two texts that seal, and that a bare value in front of them reads alike. -/
structure Alike (z z' : List Char) : Prop where
  /-- The one seals. -/
  left : Seals z
  /-- So does the other. -/
  right : Seals z'
  /-- Neither goes on with a name. -/
  parted : ∀ u, IsParted u z ∧ IsParted u z'
  /-- A bare value goes on alike. -/
  front : z.takeWhile isBareChar = z'.takeWhile isBareChar
  /-- A bare value starts alike. -/
  start : (trimStart z).takeWhile isBareChar = (trimStart z').takeWhile isBareChar

theorem mention?_append_eq {z z' : List Char} (h : Alike z z') (c : Char) (u : List Char) :
    mention? (c :: (u ++ z)) = mention? (c :: (u ++ z')) := by
  have hvalue : ∀ s, classValue (trimStart (s ++ z)) = classValue (trimStart (s ++ z')) := by
    intro s
    rcases classValue_append s with ⟨v, hv⟩ | ⟨p, hp⟩ | hs
    · rw [hv z h.left, hv z' h.right]
    · rw [hp z h.left, hp z' h.right, h.front]
    · rw [hs z h.left, hs z' h.right, h.start]
  refine Option.ext fun m => ?_
  rw [mention?_append_eq_some_iff (h.parted u).1 h.left,
    mention?_append_eq_some_iff (h.parted u).2 h.right]
  simp only [hvalue]

/-- **The mentions in front of two texts that seal and are read alike are the same.** -/
theorem exists_mentions_append {z z' : List Char} (h : Alike z z') (x : List Char) :
    ∃ ms, mentions (x ++ z) = ms ++ mentions z ∧ mentions (x ++ z') = ms ++ mentions z' := by
  induction x with
  | nil => exact ⟨[], rfl, rfl⟩
  | cons c x ih =>
    obtain ⟨ms, h₁, h₂⟩ := ih
    refine ⟨(mention? (c :: (x ++ z))).toList ++ ms, ?_, ?_⟩
    · rw [List.cons_append, mentions_cons, h₁, List.append_assoc]
    · rw [List.cons_append, mentions_cons, ← mention?_append_eq h c x, h₂, List.append_assoc]

/-- Whether a mention has a bare value. -/
def Mention.IsBare (m : Mention) : Prop := ∃ v, m.value = .bare v

/-- The mentions in front of two texts that seal are the same but for bare values. -/
theorem mem_mentions_append {x p z z' : List Char} (hz : Seals z) (hz' : Seals z')
    (hp : ∀ u, IsParted (u ++ p) z ∧ IsParted (u ++ p) z') {m : Mention}
    (h : m ∈ mentions (x ++ (p ++ z'))) :
    m ∈ mentions (x ++ (p ++ z)) ∨ m.IsBare ∨ m ∈ mentions (p ++ z') := by
  induction x with
  | nil => exact Or.inr (Or.inr h)
  | cons c x ih =>
    rw [List.cons_append, mentions_cons, List.mem_append] at h ⊢
    rcases h with h | h
    · have hm : mention? (c :: (x ++ (p ++ z'))) = some m := by simpa using h
      rw [← List.append_assoc, mention?_append_eq_some_iff (hp x).2 hz'] at hm
      obtain ⟨hc, k, w, s, hs, hk, hw, rfl⟩ := hm
      have hread : ∀ v, classValue (trimStart (s ++ z)) = v →
          mention? (c :: (x ++ (p ++ z))) = some ⟨isBlank c, k, v⟩ := by
        rintro v rfl
        rw [← List.append_assoc, mention?_append_eq_some_iff (hp x).1 hz]
        exact ⟨hc, k, w, s, hs, hk, hw, rfl⟩
      rcases classValue_append s with ⟨v, hv⟩ | ⟨q, hq⟩ | hb
      · refine Or.inl (Or.inl ?_)
        rw [hread v (hv z hz), hv z' hz']
        simp
      · exact Or.inr (Or.inl ⟨_, hq z' hz'⟩)
      · exact Or.inr (Or.inl ⟨_, hb z' hz'⟩)
    · rcases ih h with h | h
      · exact Or.inl (Or.inr h)
      · exact Or.inr h

/-! ### Angle brackets -/

/-- Angle brackets. -/
def IsAngle (d : Char) : Prop := d = '<' ∨ d = '>'

/-- Plain characters in front of an angle bracket seal. -/
theorem seals_plain_append {w : List Char} (hw : ∀ c ∈ w, isPlainChar c = true) {d : Char}
    (hd : IsAngle d) (z : List Char) : Seals (w ++ d :: z) where
  assigned := by
    have hsign : '=' ∉ w := fun h => absurd (hw _ h) (by decide)
    have hblank : isBlank d = false := by rcases hd with rfl | rfl <;> decide
    have hne : d ≠ '=' := by rcases hd with rfl | rfl <;> decide
    rw [trimStart, List.dropWhile_append, List.dropWhile_cons_of_neg (by simp [hblank])]
    split
    · simpa using hne
    · next hempty =>
      rw [List.head?_append_of_ne_nil _ (by simpa using hempty)]
      exact fun h => hsign ((List.dropWhile_suffix _).subset (List.mem_of_head? h))
  closed := by
    have hplain : isPlainChar d = false := by rcases hd with rfl | rfl <;> decide
    rw [List.dropWhile_append_of_pos hw, List.dropWhile_cons_of_neg (by simp [hplain])]
    intro c hc
    obtain rfl : d = c := Option.some.inj hc
    rcases hd with rfl | rfl <;> decide

/-- A blank in front of a text that seals. -/
theorem Seals.cons {b : Char} (hb : isBlank b = true) {z : List Char} (h : Seals z) :
    Seals (b :: z) where
  assigned := by
    rw [trimStart, List.dropWhile_cons_of_pos hb]
    exact h.assigned
  closed := by
    rw [List.dropWhile_cons_of_pos (isPlainChar_of_isBlank hb)]
    exact h.closed

theorem isParted_of_not_isNameChar {d : Char} (hd : isNameChar d = false) (u z : List Char) :
    IsParted u (d :: z) := by
  refine Or.inl fun e he => ?_
  obtain rfl : d = e := Option.some.inj he
  exact hd

theorem alike_angle {d : Char} (hd : IsAngle d) (z z' : List Char) :
    Alike (d :: z) (d :: z') := by
  have hname : isNameChar d = false := by rcases hd with rfl | rfl <;> decide
  have hblank : isBlank d = false := by rcases hd with rfl | rfl <;> decide
  have hbare : isBareChar d = false := by rcases hd with rfl | rfl <;> decide
  have hseals : ∀ z, Seals (d :: z) := seals_plain_append (w := []) (by simp) hd
  have htrim : ∀ z, trimStart (d :: z) = d :: z :=
    fun z => List.dropWhile_cons_of_neg (by simp [hblank])
  have hfront : ∀ z, (d :: z).takeWhile isBareChar = [] :=
    fun z => List.takeWhile_cons_of_neg (by simp [hbare])
  have hparted := isParted_of_not_isNameChar hname
  exact ⟨hseals z, hseals z', fun u => ⟨hparted u z, hparted u z'⟩, by rw [hfront, hfront],
    by rw [htrim, htrim, hfront, hfront]⟩

theorem mentions_singleton (c : Char) : mentions [c] = [] :=
  mentions_cons_of_none (mention?_of_head? (by simp) c)

/-- **An angle bracket divides the mentions of a text.** -/
theorem mentions_cut {d : Char} (hd : IsAngle d) (x z : List Char) :
    mentions (x ++ d :: z) = mentions (x ++ [d]) ++ mentions (d :: z) := by
  obtain ⟨ms, h₁, h₂⟩ := exists_mentions_append (alike_angle hd z []) x
  rw [h₁, h₂, mentions_singleton, List.append_nil]

/-- A tag divides the mentions of a text into those in front of it, its own, and those behind it. -/
theorem mentions_tag (x body z : List Char) :
    mentions (x ++ ('<' :: (body ++ '>' :: z))) =
      mentions (x ++ ['<']) ++ (mentions ('<' :: (body ++ ['>'])) ++ mentions ('>' :: z)) := by
  rw [mentions_cut (Or.inl rfl), ← List.cons_append, mentions_cut (Or.inr rfl)]
  rfl

/-! ### Assignments -/

theorem seals_assignment {n w : List Char} (hne : n ≠ []) (hn : ∀ c ∈ n, isBareChar c = true)
    (hw : ∀ c ∈ w, isBlank c = true) (r : List Char) : Seals (n ++ (w ++ '=' :: r)) where
  assigned := by
    cases n with
    | nil => exact absurd rfl hne
    | cons c n =>
      have hc := hn c List.mem_cons_self
      simp only [isBareChar, Bool.not_eq_true', Bool.or_eq_false_iff, beq_eq_false_iff_ne] at hc
      rw [List.cons_append, trimStart, List.dropWhile_cons_of_neg (by simp [hc])]
      simpa using hc.1.2
  closed := by
    have hplain : ∀ c ∈ n, isPlainChar c = true := by
      intro c hc
      have := hn c hc
      simp only [isBareChar, Bool.not_eq_true', Bool.or_eq_false_iff] at this
      simp [isPlainChar, this]
    have hsign : isPlainChar '=' = false := by decide
    rw [List.dropWhile_append_of_pos hplain,
      List.dropWhile_append_of_pos fun c hc => isPlainChar_of_isBlank (hw c hc),
      List.dropWhile_cons_of_neg (by simp [hsign])]
    rintro c hc
    obtain rfl : '=' = c := Option.some.inj hc
    decide

theorem isBlank_of_mem_nil : ∀ c ∈ ([] : List Char), isBlank c = true := nofun

/-- An assignment behind a blank is read alike whatever is assigned. -/
theorem alike_assignment {b : Char} (hb : isBlank b = true) {n w w' : List Char} (hne : n ≠ [])
    (hn : ∀ c ∈ n, isBareChar c = true) (hw : ∀ c ∈ w, isBlank c = true)
    (hw' : ∀ c ∈ w', isBlank c = true) (r r' : List Char) :
    Alike (b :: (n ++ (w ++ '=' :: r))) (b :: (n ++ (w' ++ '=' :: r'))) := by
  have hbare : isBareChar b = false := by simp [isBareChar, hb]
  have htrim : ∀ {w : List Char} (r),
      trimStart (b :: (n ++ (w ++ '=' :: r))) = n ++ (w ++ '=' :: r) := by
    intro w r
    cases n with
    | nil => exact absurd rfl hne
    | cons c n =>
      have hc := hn c List.mem_cons_self
      simp only [isBareChar, Bool.not_eq_true', Bool.or_eq_false_iff] at hc
      rw [trimStart, List.dropWhile_cons_of_pos hb, List.cons_append,
        List.dropWhile_cons_of_neg (by simp [hc])]
  have hblank : ∀ {w : List Char}, (∀ c ∈ w, isBlank c = true) → ∀ r,
      (w ++ '=' :: r).takeWhile isBareChar = [] := by
    intro w hw r
    cases w with
    | nil => exact List.takeWhile_cons_of_neg (by decide)
    | cons c w =>
      exact List.takeWhile_cons_of_neg (by simp [isBareChar, hw c List.mem_cons_self])
  have hparted := isParted_of_not_isNameChar (not_isNameChar_of_isBlank hb)
  refine ⟨(seals_assignment hne hn hw r).cons hb, (seals_assignment hne hn hw' r').cons hb,
    fun u => ⟨hparted u _, hparted u _⟩, ?_, ?_⟩
  · rw [List.takeWhile_cons_of_neg (by simp [hbare]), List.takeWhile_cons_of_neg (by simp [hbare])]
  · rw [htrim, htrim, List.takeWhile_append_of_pos hn, List.takeWhile_append_of_pos hn, hblank hw,
      hblank hw']

/-! ### Values between quotes -/

/-- A mention does not depend on which blank, or which quote, stands in front of it. -/
theorem mentions_cons_congr {c d : Char} (hname : isNameChar c = isNameChar d)
    (hblank : isBlank c = isBlank d) (s : List Char) : mentions (c :: s) = mentions (d :: s) := by
  rw [mentions_cons, mentions_cons, mention?, mention?, hname, hblank]

theorem mentions_cons_of_isQuote {q q' : Char} (hq : isQuote q = true) (hq' : isQuote q' = true)
    (s : List Char) : mentions (q :: s) = mentions (q' :: s) := by
  refine mentions_cons_congr ?_ ?_ s
  · rw [not_isNameChar_of_isQuote hq, not_isNameChar_of_isQuote hq']
  · rw [not_isBlank_of_isQuote hq, not_isBlank_of_isQuote hq']

theorem mentions_cons_of_isBlank {b b' : Char} (hb : isBlank b = true) (hb' : isBlank b' = true)
    (s : List Char) : mentions (b :: s) = mentions (b' :: s) :=
  mentions_cons_congr
    (by rw [not_isNameChar_of_isBlank hb, not_isNameChar_of_isBlank hb']) (by rw [hb, hb']) s

/-- No mention starts in front of a quote without an equals sign up to it. -/
theorem mentions_append_quote {y : List Char} (hy : '=' ∉ y) {q : Char} (hq : isQuote q = true)
    (c : Char) (z : List Char) : mentions (c :: (y ++ q :: z)) = mentions (q :: z) := by
  have hne : q ≠ '=' := by rintro rfl; cases hq
  have hname := not_isNameChar_of_isQuote hq
  induction y generalizing c with
  | nil =>
    exact mentions_cons_of_none
      (mention?_of_head? (toLower_ne_of_mem_head? (toLower_ne_of_not_isNameChar hname) z) c)
  | cons d y ih =>
    rw [mentions_cons_of_none, List.cons_append, ih (fun h => hy (List.mem_cons_of_mem _ h))]
    rw [Option.eq_none_iff_forall_ne_some]
    intro m hm
    obtain ⟨-, k, w, r, hs, hk, hw, -⟩ := mention?_cons_eq_some_iff.1 hm
    rw [← List.append_assoc k] at hs
    rcases List.append_eq_append_iff.1 hs with ⟨a, ha, hz⟩ | ⟨a, ha, hz⟩
    · cases a with
      | nil => exact hne (List.cons.inj hz).1
      | cons e a =>
        -- the quote would stand in the word or between it and the equals sign
        obtain ⟨rfl, -⟩ := List.cons.inj hz
        have hmem : q ∈ k ++ w := by rw [ha]; simp
        rcases List.mem_append.1 hmem with hmem | hmem
        · rw [isNameChar_of_sameAscii hk q hmem] at hname
          cases hname
        · have hblank := not_isBlank_of_isQuote hq
          rw [hw q hmem] at hblank
          cases hblank
    · cases a with
      | nil => exact hne (List.cons.inj hz).1.symm
      | cons e a =>
        obtain ⟨rfl, -⟩ := List.cons.inj hz
        exact hy (by rw [ha]; simp)

/-- No mention starts in the name, or at the sign, of an assignment of a quoted value. -/
theorem mentions_assignment {n w₁ w₂ : List Char} (hn : ∀ c ∈ n, isNameChar c = true)
    (hw₁ : ∀ c ∈ w₁, isBlank c = true) (hw₂ : ∀ c ∈ w₂, isBlank c = true) {q : Char}
    (hq : isQuote q = true) (r : List Char) :
    mentions (n ++ (w₁ ++ '=' :: (w₂ ++ q :: r))) = mentions (q :: r) := by
  have hquote : ∀ d ∈ (q :: r).head?, d.toLower ≠ 'c' :=
    toLower_ne_of_mem_head? (toLower_ne_of_not_isNameChar (not_isNameChar_of_isQuote hq)) r
  have hblank : ∀ {w : List Char}, (∀ c ∈ w, isBlank c = true) → ∀ d ∈ w, d.toLower ≠ 'c' :=
    fun hw d hd => toLower_ne_of_not_isNameChar (not_isNameChar_of_isBlank (hw d hd))
  have hsign : ∀ d ∈ ('=' :: (w₂ ++ q :: r)).head?, d.toLower ≠ 'c' :=
    toLower_ne_of_mem_head? (by decide) _
  have hbehind : mentions ('=' :: (w₂ ++ q :: r)) = mentions (q :: r) := by
    refine mentions_append_of_toLower_ne (y := '=' :: w₂) ?_ hquote
    rintro d (_ | ⟨_, hd⟩)
    · decide
    · exact hblank hw₂ d hd
  rw [mentions_append_of_isNameChar hn, mentions_append_of_toLower_ne (hblank hw₁) hsign, hbehind]

theorem mention?_of_sameAscii {b : Char} (hb : isNameChar b = false) {k w₁ w₂ : List Char}
    (hk : sameAscii k "class".toList = true) (hw₁ : ∀ c ∈ w₁, isBlank c = true)
    (hw₂ : ∀ c ∈ w₂, isBlank c = true) {d : Char} (hd : isBlank d = false) (r : List Char) :
    mention? (b :: (k ++ (w₁ ++ '=' :: (w₂ ++ d :: r)))) =
      some ⟨isBlank b, k, classValue (d :: r)⟩ :=
  mention?_cons_eq_some_iff.2
    ⟨hb, k, w₁, _, rfl, hk, hw₁, by rw [trimStart_blanks_append hw₂ hd]⟩

theorem classValue_quoted {q : Char} (hq : isQuote q = true) {v : List Char}
    (hv : ∀ c ∈ v, isPlainChar c = true) (r : List Char) :
    classValue (q :: (v ++ q :: r)) = .quoted v := by
  have hplain : isPlainChar q = false := by simp [isPlainChar, hq]
  have hdrop : (v ++ q :: r).dropWhile isPlainChar = q :: r := by
    rw [List.dropWhile_append_of_pos hv, List.dropWhile_cons_of_neg (by simp [hplain])]
  have htake : (v ++ q :: r).takeWhile isPlainChar = v := by
    rw [List.takeWhile_append_of_pos hv, List.takeWhile_cons_of_neg (by simp [hplain]),
      List.append_nil]
  rw [classValue, if_pos hq, hdrop, htake, List.head?_cons, if_pos rfl]

/-- A quoted value is a plain text between two equal quotes. -/
theorem classValue_eq_quoted_iff {s v : List Char} :
    classValue s = .quoted v ↔
      ∃ q r, isQuote q = true ∧ (∀ c ∈ v, isPlainChar c = true) ∧ s = q :: (v ++ q :: r) := by
  constructor
  · intro h
    unfold classValue at h
    split at h
    · cases h
    · next q s =>
      split at h
      · next hq =>
        split at h
        · next hhead =>
          obtain rfl : s.takeWhile isPlainChar = v := ClassValue.quoted.inj h
          obtain ⟨r, hr⟩ := List.head?_eq_some_iff.1 hhead
          refine ⟨q, r, hq, fun c hc => List.mem_takeWhile_imp hc, ?_⟩
          rw [← hr, List.takeWhile_append_dropWhile]
        · cases h
      · cases h
  · rintro ⟨q, r, hq, hv, rfl⟩
    exact classValue_quoted hq hv r

/-- A value up to a quote is torn, or it is plain and between equal quotes. -/
theorem classValue_of_closed {q q' : Char} (hq : isQuote q = true) {v : List Char}
    (hv : q ∉ v) (hq' : isQuote q' = true) (r : List Char)
    (h : classValue (q :: (v ++ q' :: r)) ≠ .torn) :
    q' = q ∧ (∀ c ∈ v, isPlainChar c = true) ∧ classValue (q :: (v ++ q' :: r)) = .quoted v := by
  rw [classValue, if_pos hq] at h
  cases hd : v.dropWhile isPlainChar with
  | nil =>
    have hall := List.dropWhile_eq_nil_iff.1 hd
    have hplain : isPlainChar q' = false := by simp [isPlainChar, hq']
    rw [List.dropWhile_append_of_pos hall, List.dropWhile_cons_of_neg (by simp [hplain])] at h
    obtain rfl : q' = q := by
      by_contra hne
      exact h (if_neg (by simpa using hne))
    exact ⟨rfl, hall, classValue_quoted hq hall r⟩
  | cons d t =>
    -- the first character that is not plain belongs to the value, so it is no quote
    have hmem : d ∈ v := (List.dropWhile_suffix isPlainChar).subset (by rw [hd]; simp)
    rw [List.dropWhile_append, hd] at h
    refine absurd (if_neg ?_) h
    intro hdq
    obtain rfl : d = q := Option.some.inj hdq
    exact hv hmem

/-- A mention with a plain value between quotes, in front of the rest of the text. -/
theorem mentions_quoted {b : Char} (hb : isNameChar b = false) {k w₁ w₂ : List Char}
    (hk : sameAscii k "class".toList = true) (hw₁ : ∀ c ∈ w₁, isBlank c = true)
    (hw₂ : ∀ c ∈ w₂, isBlank c = true) {q : Char} (hq : isQuote q = true) {v : List Char}
    (hv : ∀ c ∈ v, isPlainChar c = true) (r : List Char) :
    mentions (b :: (k ++ (w₁ ++ '=' :: (w₂ ++ q :: (v ++ q :: r))))) =
      ⟨isBlank b, k, .quoted v⟩ :: mentions (q :: r) := by
  have hblank := not_isBlank_of_isQuote hq
  have hsign : '=' ∉ v := fun h => absurd (hv _ h) (by decide)
  rw [mentions_cons_of_some (mention?_of_sameAscii hb hk hw₁ hw₂ hblank _), classValue_quoted hq hv,
    mentions_assignment (isNameChar_of_sameAscii hk) hw₁ hw₂ hq, mentions_append_quote hsign hq]

end Markup
end SceneMarkup
