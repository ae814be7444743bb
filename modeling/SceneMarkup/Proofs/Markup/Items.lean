import SceneMarkup.Proofs.Markup.Rank
import SceneMarkup.Proofs.Markup.Readers

/-!
# Lists of neighbouring items

Making lists of neighbouring items keeps all that is not an item, and takes the letter `v` out of
the tags of the items that become a list.

## Main definitions

* `Segment.text`, `Run.text` — the text that a segment or a run stands for.
* `Run.segments`, `Run.items` — the segments and the items of a run.

## Main results

* `text_segments`, `text_runs` — dividing a text into segments and runs loses nothing.
* `segmentsOf_append`, `segments_append_of_isFlat`, `segments_blanks_append` — the segments of texts
  in a row.
* `segments_runs` — gathering segments into runs keeps them all, in order.
* `groupItems_invariant` — the rule keeps what making one list keeps.
* `groupItems_eq_self`, `groupItems_idle_or_lowers` — **either no two items belong together and the
  text is kept, or the rule lowers the number of fleeting characters.**
-/

namespace SceneMarkup
namespace Markup

open Text

/-- The text of a segment. -/
def Segment.text (g : Segment) : List Char := g.gap ++ g.item

/-- The text of a run as it was found. -/
def Run.text (r : Run) : List Char := r.gap ++ (r.first ++ r.others.flatMap Segment.text)

/-! ### Segments -/

theorem prepend_nil (p : List Segment × List Char) : prepend [] p = p := by
  obtain ⟨gs, tail⟩ := p
  cases gs <;> rfl

theorem prepend_prepend (t u : List Char) (p : List Segment × List Char) :
    prepend t (prepend u p) = prepend (t ++ u) p := by
  obtain ⟨gs, tail⟩ := p
  cases gs with
  | nil => simp [prepend]
  | cons g gs => simp [prepend]

theorem text_prepend (t : List Char) (p : List Segment × List Char) :
    (prepend t p).1.flatMap Segment.text ++ (prepend t p).2 =
      t ++ (p.1.flatMap Segment.text ++ p.2) := by
  obtain ⟨gs, tail⟩ := p
  cases gs with
  | nil => rfl
  | cons g gs => simp [prepend, Segment.text]

theorem text_segmentsOf (ps : List (Piece Unit)) :
    (segmentsOf ps).1.flatMap Segment.text ++ (segmentsOf ps).2 = ps.flatMap Piece.text := by
  induction ps with
  | nil => rfl
  | cons x ps ih =>
    cases x with
    | plain c => rw [segmentsOf, text_prepend, ih, List.flatMap_cons, Piece.text_plain]
    | found t a =>
      rw [segmentsOf]
      split
      · simp [Segment.text, ← ih]
      · rw [text_prepend, ih, List.flatMap_cons, Piece.text_found]

/-- Dividing a text into segments loses nothing. -/
theorem text_segments (s : List Char) :
    (segments s).1.flatMap Segment.text ++ (segments s).2 = s := by
  rw [segments, text_segmentsOf, flatMap_text_pieces]

theorem mem_prepend {t : List Char} {p : List Segment × List Char} {g : Segment}
    (h : g ∈ (prepend t p).1) : ∃ g' ∈ p.1, g.item = g'.item := by
  obtain ⟨gs, tail⟩ := p
  cases gs with
  | nil => cases h
  | cons g₀ gs =>
    rcases List.mem_cons.1 h with rfl | h
    · exact ⟨g₀, List.mem_cons_self, rfl⟩
    · exact ⟨g, List.mem_cons_of_mem _ h, rfl⟩

/-- The items of segments are found pieces. -/
theorem mem_segmentsOf {ps : List (Piece Unit)} {g : Segment} (h : g ∈ (segmentsOf ps).1) :
    .found g.item () ∈ ps := by
  induction ps generalizing g with
  | nil => cases h
  | cons x ps ih =>
    cases x with
    | plain c =>
      obtain ⟨g', hg', heq⟩ := mem_prepend h
      rw [heq]
      exact List.mem_cons_of_mem _ (ih hg')
    | found t a =>
      rw [segmentsOf] at h
      split at h
      · rcases List.mem_cons.1 h with rfl | h
        · exact List.mem_cons_self
        · exact List.mem_cons_of_mem _ (ih h)
      · obtain ⟨g', hg', heq⟩ := mem_prepend h
        rw [heq]
        exact List.mem_cons_of_mem _ (ih hg')

/-- The segments of pieces in a row. -/
theorem segmentsOf_append (ps qs : List (Piece Unit)) :
    segmentsOf (ps ++ qs) =
      ((segmentsOf ps).1 ++ (prepend (segmentsOf ps).2 (segmentsOf qs)).1,
        (prepend (segmentsOf ps).2 (segmentsOf qs)).2) := by
  have hprepend : ∀ (t : List Char) (p q : List Segment × List Char),
      prepend t (p.1 ++ (prepend p.2 q).1, (prepend p.2 q).2) =
        ((prepend t p).1 ++ (prepend (prepend t p).2 q).1, (prepend (prepend t p).2 q).2) := by
    rintro t ⟨gs, tail⟩ q
    cases gs with
    | nil => exact prepend_prepend t tail q
    | cons g gs => rfl
  induction ps with
  | nil => simp [segmentsOf, prepend_nil]
  | cons x ps ih =>
    cases x with
    | plain c => rw [List.cons_append, segmentsOf, ih, hprepend, segmentsOf]
    | found t a =>
      rw [List.cons_append, segmentsOf, segmentsOf, ih]
      split
      · rfl
      · exact hprepend t _ _

/-- The segments of a text behind a flat item. -/
theorem segments_append_of_isFlat {t r : List Char} (ht : t ≠ [])
    (h : item? (t ++ r) = some ((), r)) (hflat : isFlat t = true) :
    segments (t ++ r) = (⟨[], t⟩ :: (segments r).1, (segments r).2) := by
  rw [segments, pieces_append_of_some ht h, segmentsOf, if_pos hflat]
  rfl

/-- The segments of a text behind blanks. -/
theorem segments_blanks_append {w : List Char} (hw : ∀ c ∈ w, isBlank c = true) (s : List Char) :
    segments (w ++ s) = prepend w (segments s) := by
  induction w with
  | nil => rw [List.nil_append, prepend_nil]
  | cons c w ih =>
    have hc : c ≠ '<' := by
      rintro rfl
      exact absurd (hw _ List.mem_cons_self) (by decide)
    have hcons : segments (c :: (w ++ s)) = prepend [c] (segments (w ++ s)) := by
      rw [segments, pieces_cons_of_none (item?_cons_of_ne hc _), segmentsOf]
      rfl
    rw [List.cons_append, hcons, ih fun c hc => hw c (List.mem_cons_of_mem _ hc), prepend_prepend]
    rfl

/-- The text of an item, from `<div` to `</div>`. -/
def IsItem (t : List Char) : Prop := ∃ u, t = "<div".toList ++ (u ++ "</div>".toList)

theorem isItem_of_mem_segments {s : List Char} {g : Segment} (h : g ∈ (segments s).1) :
    IsItem g.item := by
  obtain ⟨r, -, hr⟩ := occurrence_of_mem consumes_item? (mem_segmentsOf h)
  obtain ⟨u, hu⟩ := item?_eq_some hr
  exact ⟨u, List.append_cancel_right (hu.trans (by simp))⟩

/-! ### Runs -/

/-- The segments of a run. -/
def Run.segments (r : Run) : List Segment := ⟨r.gap, r.first⟩ :: r.others

/-- Gathering segments into runs keeps them all, in order. -/
theorem segments_runs (gs : List Segment) : (runs gs).flatMap Run.segments = gs := by
  induction gs with
  | nil => rfl
  | cons g gs ih =>
    rw [runs]
    split
    · next h =>
      rw [h] at ih
      rw [← ih]
      rfl
    · next r rs h =>
      rw [h] at ih
      rw [← ih]
      split <;> rfl

theorem Run.text_eq (r : Run) : r.text = r.segments.flatMap Segment.text := by
  rw [Run.text, Run.segments, List.flatMap_cons, Segment.text, List.append_assoc]

/-- Gathering segments into runs loses nothing. -/
theorem text_runs (gs : List Segment) :
    (runs gs).flatMap Run.text = gs.flatMap Segment.text := by
  conv => rhs; rw [← segments_runs gs, List.flatMap_assoc]
  exact List.flatMap_congr fun r _ => r.text_eq

/-- The items of a run. -/
def Run.items (r : Run) : List (List Char) := r.first :: r.others.map Segment.item

/-- The items of runs are those of the segments. -/
theorem mem_items_runs {gs : List Segment} {r : Run} (hr : r ∈ runs gs) {t : List Char}
    (ht : t ∈ r.items) : ∃ g ∈ gs, g.item = t := by
  obtain ⟨g, hg, hitem⟩ : ∃ g ∈ r.segments, g.item = t := List.mem_map.1 ht
  have hmem : g ∈ (runs gs).flatMap Run.segments := List.mem_flatMap.2 ⟨r, hr, hg⟩
  rw [segments_runs] at hmem
  exact ⟨g, hmem, hitem⟩

/-! ### Lists -/

/-- The items of the runs of a text. -/
theorem isItem_of_mem_runs {s : List Char} {r : Run} (hr : r ∈ runs (segments s).1) :
    ∀ t ∈ r.items, IsItem t := by
  intro t ht
  obtain ⟨g, hg, rfl⟩ := mem_items_runs hr ht
  exact isItem_of_mem_segments hg

/-- Only blanks stand between the items of a run. -/
theorem allBlank_of_mem_runs {gs : List Segment} {r : Run} (hr : r ∈ runs gs) :
    ∀ g ∈ r.others, allBlank g.gap = true := by
  induction gs generalizing r with
  | nil => cases hr
  | cons g gs ih =>
    rw [runs] at hr
    split at hr
    · rw [List.mem_singleton.1 hr]
      simp
    · next r' rs hruns =>
      have hall : ∀ r ∈ r' :: rs, ∀ g ∈ r.others, allBlank g.gap = true :=
        fun r hr => ih (hruns ▸ hr)
      split at hr
      · next hgap =>
        rcases List.mem_cons.1 hr with rfl | hr
        · intro g hg
          rcases List.mem_cons.1 hg with rfl | hg
          · exact hgap
          · exact hall r' List.mem_cons_self g hg
        · exact hall r (List.mem_cons_of_mem _ hr)
      · rcases List.mem_cons.1 hr with rfl | hr
        · simp
        · exact hall r hr

theorem itemBody_of_isItem {u : List Char} :
    itemBody ("<div".toList ++ (u ++ "</div>".toList)) = u := by
  rw [itemBody, after?_append]
  simp only [Option.getD_some, List.reverse_append, after?_append, List.reverse_reverse]

theorem fleeting_listItem_lt {t : List Char} (h : IsItem t) :
    fleeting (listItem t) < fleeting t := by
  obtain ⟨u, rfl⟩ := h
  have h₁ : fleeting "<li".toList = 0 := by decide
  have h₂ : fleeting "</li>".toList = 0 := by decide
  have h₃ : fleeting "<div".toList = 1 := by decide
  have h₄ : fleeting "</div>".toList = 1 := by decide
  rw [listItem, itemBody_of_isItem]
  rw [fleeting_append, fleeting_append, fleeting_append, fleeting_append, h₁, h₂, h₃, h₄]
  omega

/-- List items have fewer fleeting characters than the items, one at least for each. -/
theorem fleeting_listItems {ts : List (List Char)} (h : ∀ t ∈ ts, IsItem t) :
    fleeting (ts.flatMap fun t => "\n    ".toList ++ listItem t) + ts.length
      ≤ fleeting ts.flatten := by
  induction ts with
  | nil => exact Nat.le_refl _
  | cons t ts ih =>
    have hbreak : fleeting "\n    ".toList = 0 := by decide
    have ht := fleeting_listItem_lt (h t List.mem_cons_self)
    have hts := ih fun x hx => h x (List.mem_cons_of_mem _ hx)
    rw [List.flatMap_cons, List.flatten_cons, List.length_cons, fleeting_append, fleeting_append,
      fleeting_append, hbreak]
    omega

theorem fleeting_items_le (r : Run) : fleeting r.items.flatten ≤
    fleeting (r.first ++ r.others.flatMap Segment.text) := by
  have hothers : ∀ gs : List Segment,
      fleeting (gs.map Segment.item).flatten ≤ fleeting (gs.flatMap Segment.text) := by
    intro gs
    induction gs with
    | nil => exact Nat.le_refl _
    | cons g gs ih =>
      rw [List.map_cons, List.flatten_cons, List.flatMap_cons, fleeting_append, fleeting_append,
        Segment.text, fleeting_append]
      omega
  have := hothers r.others
  rw [Run.items, List.flatten_cons, fleeting_append, fleeting_append]
  omega

/-- A run that becomes a list loses fleeting characters. -/
theorem fleeting_render_lt {r : Run} (hr : ∀ t ∈ r.items, IsItem t) (h : r.others ≠ []) :
    fleeting r.render < fleeting r.text := by
  have hitems := fleeting_listItems hr
  have hle := fleeting_items_le r
  have hlen : 0 < r.items.length := Nat.succ_pos _
  have hopen : fleeting "<ul>".toList = 0 := by decide
  have hclose : fleeting "\n</ul>".toList = 0 := by decide
  have hlist : fleeting r.list
      = fleeting (r.items.flatMap fun t => "\n    ".toList ++ listItem t) := by
    unfold Run.list
    rw [fleeting_append, fleeting_append, hopen]
    simp only [hclose, Nat.zero_add, Nat.add_zero]
    rfl
  have hempty : r.others.isEmpty = false := by simpa using h
  rw [Run.render, Run.text, hempty, fleeting_append r.gap, fleeting_append r.gap]
  simp only [Bool.false_eq_true, if_false]
  omega

theorem render_eq_text {r : Run} (h : r.others = []) : r.render = r.text := by
  simp [Run.render, Run.text, h]

/-- The list that is made of a run, item by item. -/
theorem render_eq_list {r : Run} (h : r.others ≠ []) :
    r.render = r.gap ++ ("<ul>".toList ++ ("\n    ".toList ++ (listItem r.first ++
      ((r.others.map Segment.item).flatMap (fun t => "\n    ".toList ++ listItem t) ++
        "\n</ul>".toList)))) := by
  have hempty : r.others.isEmpty = false := by simpa using h
  rw [Run.render, hempty, if_neg Bool.false_ne_true, Run.list, List.flatMap_cons]
  simp only [List.append_assoc]

/-- A text in which no two items belong together is kept. -/
theorem groupItems_eq_self {s : List Char} (h : ∀ r ∈ runs (segments s).1, r.others = []) :
    groupItems s = s := by
  have hruns : (runs (segments s).1).flatMap Run.render
      = (runs (segments s).1).flatMap Run.text :=
    List.flatMap_congr fun r hr => render_eq_text (h r hr)
  conv => rhs; rw [← text_segments s, ← text_runs, ← hruns]
  rfl

/-- What making a list of one run keeps in every context, making lists of all runs keeps. -/
theorem groupItems_invariant {s : List Char} {I : List Char → Prop} (start : I s)
    (step : ∀ r : Run, (∀ g ∈ r.others, allBlank g.gap = true) → (∀ t ∈ r.items, IsItem t) →
      ∀ x y, I (x ++ (r.text ++ y)) → I (x ++ (r.render ++ y))) : I (groupItems s) := by
  have key : ∀ rs : List Run, (∀ r ∈ rs, r ∈ runs (segments s).1) → ∀ x y,
      I (x ++ (rs.flatMap Run.text ++ y)) → I (x ++ (rs.flatMap Run.render ++ y)) := by
    intro rs
    induction rs with
    | nil => exact fun _ _ _ h => h
    | cons r rs ih =>
      intro hrs x y h
      have hr := hrs r List.mem_cons_self
      rw [List.flatMap_cons, List.append_assoc] at h ⊢
      have hlist := step r (allBlank_of_mem_runs hr) (isItem_of_mem_runs hr) x _ h
      rw [← List.append_assoc] at hlist ⊢
      exact ih (fun r hr => hrs r (List.mem_cons_of_mem _ hr)) (x ++ r.render) y hlist
  have htext : s = (runs (segments s).1).flatMap Run.text ++ (segments s).2 := by
    rw [text_runs, text_segments]
  rw [htext] at start
  exact key (runs (segments s).1) (fun _ hr => hr) [] (segments s).2 start

theorem fleeting_flatMap_render {rs : List Run} (h : ∀ r ∈ rs, ∀ t ∈ r.items, IsItem t) :
    fleeting (rs.flatMap Run.render) ≤ fleeting (rs.flatMap Run.text) ∧
      ((∃ r ∈ rs, r.others ≠ []) →
        fleeting (rs.flatMap Run.render) < fleeting (rs.flatMap Run.text)) := by
  induction rs with
  | nil => simp
  | cons r rs ih =>
    obtain ⟨hle, hlt⟩ := ih fun x hx => h x (List.mem_cons_of_mem _ hx)
    have hr := h r List.mem_cons_self
    rw [List.flatMap_cons, List.flatMap_cons, fleeting_append, fleeting_append]
    by_cases ho : r.others = []
    · rw [render_eq_text ho]
      refine ⟨by omega, ?_⟩
      rintro ⟨x, hx, hne⟩
      rcases List.mem_cons.1 hx with rfl | hx
      · exact absurd ho hne
      · have := hlt ⟨x, hx, hne⟩
        omega
    · have := fleeting_render_lt hr ho
      exact ⟨by omega, fun _ => by omega⟩

/-- **Either no two items belong together, or the rule lowers the number of fleeting
characters.** -/
theorem groupItems_idle_or_lowers (s : List Char) :
    (∀ r ∈ runs (segments s).1, r.others = []) ∨ fleeting (groupItems s) < fleeting s := by
  by_cases h : ∀ r ∈ runs (segments s).1, r.others = []
  · exact Or.inl h
  · refine Or.inr ?_
    simp only [not_forall] at h
    obtain ⟨r, hr, hne⟩ := h
    have hlt := (fleeting_flatMap_render fun r hr => isItem_of_mem_runs hr).2 ⟨r, hr, hne⟩
    have hs : fleeting s
        = fleeting ((runs (segments s).1).flatMap Run.text) + fleeting (segments s).2 := by
      conv => lhs; rw [← text_segments s, ← text_runs, fleeting_append]
    have hgroup : fleeting (groupItems s)
        = fleeting ((runs (segments s).1).flatMap Run.render) + fleeting (segments s).2 :=
      fleeting_append _ _
    omega

end Markup
end SceneMarkup
