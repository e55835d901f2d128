import ScopedScript.Proofs.Report.Excerpt

namespace ScopedScript

namespace Excerpt

def IsRow (all : List (List Char)) (bar : Nat) (mark : Char) (number : Nat) (row : String) : Prop :=
  ∃ pad content, all[number - 1]? = some content ∧
    pad + (Number.natDigits number).length + 3 = bar ∧
    row.toList = mark :: ' ' :: List.replicate pad ' ' ++ Number.natDigits number ++
      ' ' :: '|' :: ' ' :: content

/-- Rows that show the lines from `first` to `last`. Only one line is marked, and the row behind it
has a caret in a column. -/
structure Window (all : List (List Char)) (first line last column bar : Nat) (above : List String)
    (marked caret : String) (below : List String) : Prop where
  above : List.Forall₂ (IsRow all bar ' ') (List.range' first (line - first)) above
  marked : IsRow all bar '>' line marked
  caret : caret.toList =
    List.replicate bar ' ' ++ '|' :: ' ' :: List.replicate (column - 1) ' ' ++ ['^']
  below : List.Forall₂ (IsRow all bar ' ') (List.range' (line + 1) (last - line)) below

theorem isRow_row {all : List (List Char)} {mark : Char} {width number : Nat} {content : List Char}
    (h : all[number - 1]? = some content) (room : (Number.natDigits number).length ≤ width) :
    IsRow all (width + 3) mark number (row (String.singleton mark) width number content) := by
  refine ⟨width - (Number.natDigits number).length, content, h, by omega, ?_⟩
  simp [toList_row, lead]

theorem gap_eq (width : Nat) : gap width = List.replicate (width + 3) ' ' ++ ['|', ' '] := by
  rw [show width + 3 = 2 + width + 1 by omega, List.replicate_add, List.replicate_add]
  simp [gap, List.replicate_succ]

theorem isRow_numbered {all : List (List Char)} {first count last : Nat} (hf : 1 ≤ first)
    (hlast : first + count ≤ last + 1) (hall : last ≤ all.length) :
    List.Forall₂ (IsRow all ((Number.natDigits last).length + 3) ' ') (List.range' first count)
      ((numbered all first count).map (plainRow (Number.natDigits last).length)) := by
  have numbers : List.range' first count = (numbered all first count).map Prod.snd := by
    rw [numbered, List.zipIdx_map_snd, List.length_take, List.length_drop]
    congr 1
    omega
  rw [numbers, List.forall₂_map_left_iff, List.forall₂_map_right_iff, List.forall₂_same]
  intro x hx
  obtain ⟨content, -, below⟩ := mem_numbered hf hx
  exact isRow_row content (length_natDigits_mono (by omega))

section

variable {all : List (List Char)} {bar number : Nat} {mark : Char} {row : String}

theorem idxOf_append_cons {c : Char} {front rest : List Char} (h : c ∉ front) :
    (front ++ c :: rest).idxOf c = front.length := by
  rw [List.idxOf_append_of_notMem h, List.idxOf_cons_self, Nat.add_zero]

theorem IsRow.idxOf_bar (hm : mark ≠ '|') (h : IsRow all bar mark number row) :
    row.toList.idxOf '|' = bar := by
  obtain ⟨pad, content, -, rfl, chars⟩ := h
  have digits : '|' ∉ Number.natDigits number := fun h =>
    absurd (Text.isDigit_of_mem_natDigits h) (by decide)
  have front : '|' ∉ mark :: ' ' :: List.replicate pad ' ' ++ Number.natDigits number ++ [' '] := by
    simp [digits, hm.symm]
  rw [chars, List.append_cons, idxOf_append_cons front]
  simp only [List.length_append, List.length_cons, List.length_replicate, List.length_nil]
  omega

theorem IsRow.getElem?_content {content : List Char} (h : IsRow all bar mark number row)
    (hc : all[number - 1]? = some content) (i : Nat) :
    row.toList[bar + 2 + i]? = content[i]? := by
  obtain ⟨pad, content', hc', rfl, chars⟩ := h
  cases hc.symm.trans hc'
  have split : mark :: ' ' :: List.replicate pad ' ' ++ Number.natDigits number ++
      ' ' :: '|' :: ' ' :: content =
      (mark :: ' ' :: List.replicate pad ' ' ++ Number.natDigits number ++ [' ', '|', ' ']) ++
        content := by simp
  have width : (mark :: ' ' :: List.replicate pad ' ' ++ Number.natDigits number ++
      [' ', '|', ' ']).length = pad + (Number.natDigits number).length + 3 + 2 := by
    simp only [List.length_append, List.length_cons, List.length_replicate, List.length_nil]
    omega
  rw [chars, split, ← width, List.getElem?_append_right (Nat.le_add_right _ _),
    Nat.add_sub_cancel_left]

end

section

variable {all : List (List Char)} {first line last column bar : Nat} {above below : List String}
  {marked caret : String}

theorem Window.idxOf_bar (h : Window all first line last column bar above marked caret below) :
    ∀ row ∈ above ++ marked :: caret :: below, row.toList.idxOf '|' = bar := by
  have plain {numbers : List Nat} {rows : List String}
      (h : List.Forall₂ (IsRow all bar ' ') numbers rows) :
      ∀ row ∈ rows, row.toList.idxOf '|' = bar := by
    induction h with
    | nil => exact nofun
    | cons first _ ih => exact List.forall_mem_cons.2 ⟨first.idxOf_bar (by decide), ih⟩
  intro row hrow
  rcases List.mem_append.1 hrow with hrow | hrow
  · exact plain h.above row hrow
  · rcases List.mem_cons.1 hrow with rfl | hrow
    · exact h.marked.idxOf_bar (by decide)
    · rcases List.mem_cons.1 hrow with rfl | hrow
      · rw [h.caret, List.append_assoc, List.cons_append, idxOf_append_cons (by simp),
          List.length_replicate]
      · exact plain h.below row hrow

theorem Window.idxOf_caret (h : Window all first line last column bar above marked caret below) :
    caret.toList.idxOf '^' = bar + 2 + (column - 1) := by
  rw [h.caret, idxOf_append_cons (by simp)]
  simp only [List.length_append, List.length_cons, List.length_replicate]
  omega

end

end Excerpt

open Excerpt

/-- An excerpt is the window of the lines that are at most `radius` away from its line. A row has
nothing in it that ends a line; its bar is where those of all others are, and the caret is below
the character that stands in the column. -/
theorem excerpt_window (source : String) {line : Nat} (column radius : Nat) (hl : 1 ≤ line)
    (hn : line ≤ (Text.lines source.toList).length) :
    ∃ bar content above marked caret below,
      excerpt source line (some column) radius =
        "\n".intercalate (above ++ marked :: caret :: below) ∧
      Window (Text.lines source.toList) (max 1 (line - radius)) line
        (min (Text.lines source.toList).length (line + radius)) column bar above marked caret
        below ∧
      (∀ row ∈ above ++ marked :: caret :: below,
        SingleLine row.toList ∧ row.toList.idxOf '|' = bar) ∧
      (Text.lines source.toList)[line - 1]? = some content ∧
      (∀ i, marked.toList[bar + 2 + i]? = content[i]?) ∧
      caret.toList.idxOf '^' = bar + 2 + (column - 1) := by
  set all := Text.lines source.toList
  set first := max 1 (line - radius) with first_eq
  set last := min all.length (line + radius) with last_eq
  have shown : window all.length line radius = (first, last) := by
    simp only [window, Prod.mk.injEq]
    omega
  obtain ⟨content, content_eq⟩ : ∃ content, all[line - 1]? = some content :=
    ⟨_, List.getElem?_eq_getElem (by omega)⟩
  have rows := excerptRows_eq source.toList column (Int.natCast_nonneg radius) hl content_eq shown
  have single := singleLine_excerptRows source.toList line (some column) radius
  set width := (Number.natDigits last).length
  set above := (numbered all first (line - first)).map (plainRow width)
  set below := (numbered all (line + 1) (last - line)).map (plainRow width)
  rw [rows, List.append_assoc] at single
  have win : Window all first line last column (width + 3) above (row ">" width line content)
      (caretRow width column) below :=
    { above := isRow_numbered (by omega) (by omega) (by omega)
      marked := isRow_row content_eq (length_natDigits_mono (by omega))
      caret := by simp [toList_caretRow, gap_eq]
      below := isRow_numbered (by omega) (by omega) (by omega) }
  refine ⟨_, content, above, _, _, below, ?_, win,
    fun row hrow => ⟨single row hrow, win.idxOf_bar row hrow⟩, content_eq,
    win.marked.getElem?_content content_eq, win.idxOf_caret⟩
  rw [excerpt, rows, List.append_assoc]
  rfl

theorem excerpt_window_wider_numbers :
    let source := "a\nb\nc\nd\ne\nf\ng\nh\nij\nk\nl"
    excerpt source 9 (some 2) 1 = "   8 | h\n>  9 | ij\n     |  ^\n  10 | k" ∧
      9 ≤ (Text.lines source.toList).length ∧
      ∃ bar above marked caret below,
        excerpt source 9 (some 2) 1 = "\n".intercalate (above ++ marked :: caret :: below) ∧
        Window (Text.lines source.toList) 8 9 10 2 bar above marked caret below := by
  intro source
  have count : (Text.lines source.toList).length = 11 := by decide +kernel
  have inside : 9 ≤ (Text.lines source.toList).length := by omega
  obtain ⟨bar, -, above, marked, caret, below, rows, window, -⟩ :=
    excerpt_window source 2 1 (by decide : 1 ≤ 9) inside
  rw [count] at window
  exact ⟨by decide +kernel, inside, bar, above, marked, caret, below, rows, window⟩

end ScopedScript
