import ScopedScript.Proofs.Number.Whole
import ScopedScript.Proofs.Text.Lines
import ScopedScript.Report

namespace ScopedScript

namespace Excerpt

def lead (mark : String) (width number : Nat) : List Char :=
  let digits := Number.natDigits number
  mark.toList ++ ' ' :: List.replicate (width - digits.length) ' ' ++ digits ++ [' ', '|', ' ']

def gap (width : Nat) : List Char := ' ' :: ' ' :: List.replicate width ' ' ++ [' ', '|', ' ']

theorem toList_row (mark : String) (width number : Nat) (content : List Char) :
    (row mark width number content).toList = lead mark width number ++ content := by
  simp [row, lead, blanks]

theorem toList_caretRow (width : Nat) (column : Int) :
    (caretRow width column).toList =
      gap width ++ List.replicate (column - 1).toNat ' ' ++ ['^'] := by
  simp [caretRow, gap, blanks]

theorem length_natDigits_mono {m n : Nat} (h : m ≤ n) :
    (Number.natDigits m).length ≤ (Number.natDigits n).length := by
  have pos : 0 < (Number.natDigits n).length := Nat.length_toDigits_pos
  have below := (Nat.length_toDigits_le_iff (b := 10) (n := n) (by omega) pos).1 (Nat.le_refl _)
  exact (Nat.length_toDigits_le_iff (by omega) pos).2 (Nat.lt_of_le_of_lt h below)

theorem length_lead {mark : String} (hm : mark.length = 1) {width number : Nat}
    (h : (Number.natDigits number).length ≤ width) :
    (lead mark width number).length = (gap width).length := by
  simp only [lead, gap, List.length_append, List.length_cons, List.length_replicate,
    List.length_nil, String.length_toList]
  omega

def SingleLine (cs : List Char) : Prop := ∀ c ∈ cs, Text.isLineBreak c = false

theorem singleLine_append {cs ds : List Char} (hc : SingleLine cs) (hd : SingleLine ds) :
    SingleLine (cs ++ ds) := List.forall_mem_append.2 ⟨hc, hd⟩

theorem singleLine_replicate (n : Nat) : SingleLine (List.replicate n ' ') := by
  intro c hc
  rw [List.eq_of_mem_replicate hc]
  simp [Text.isLineBreak]

theorem singleLine_natDigits (n : Nat) : SingleLine (Number.natDigits n) := by
  intro c hc
  have digit : c.isDigit := Text.isDigit_of_mem_natDigits hc
  refine Bool.eq_false_iff.2 fun ends => ?_
  simp only [Text.isLineBreak, List.mem_cons, List.not_mem_nil, or_false, decide_eq_true_eq] at ends
  rcases ends with rfl | rfl | rfl | rfl | rfl | rfl | rfl | rfl | rfl | rfl <;>
    exact absurd digit (by decide)

theorem singleLine_row {mark : String} (hm : SingleLine mark.toList) (width number : Nat)
    {content : List Char} (hc : SingleLine content) :
    SingleLine (row mark width number content).toList := by
  have blank : SingleLine [' '] := by simp [SingleLine, Text.isLineBreak]
  have bar : SingleLine [' ', '|', ' '] := by simp [SingleLine, Text.isLineBreak]
  rw [toList_row, lead, ← List.singleton_append]
  exact singleLine_append (singleLine_append (singleLine_append (singleLine_append hm
    (singleLine_append blank (singleLine_replicate _))) (singleLine_natDigits number)) bar) hc

theorem singleLine_caretRow (width : Nat) (column : Int) :
    SingleLine (caretRow width column).toList := by
  have blanks : SingleLine [' ', ' '] := by simp [SingleLine, Text.isLineBreak]
  have bar : SingleLine [' ', '|', ' '] := by simp [SingleLine, Text.isLineBreak]
  have caret : SingleLine ['^'] := by simp [SingleLine, Text.isLineBreak]
  rw [toList_caretRow]
  exact singleLine_append (singleLine_append (singleLine_append (singleLine_append blanks
    (singleLine_replicate width)) bar) (singleLine_replicate _)) caret

def plainRow (width : Nat) (x : List Char × Nat) : String := row " " width x.2 x.1

/-- Rows that mark one line: its row is marked and followed by that of a caret, and the others are
the rows of other lines. The caret is as far behind the start of its row as the column is behind
that of the content. -/
def Marks (rows : List String) (line : Nat) (column : Int) (content : List Char) : Prop :=
  ∃ (width : Nat) (above below : List (List Char × Nat)) (lead gap : List Char),
    rows = above.map (plainRow width) ++
        [row ">" width line content, caretRow width column] ++ below.map (plainRow width) ∧
      (row ">" width line content).toList = lead ++ content ∧
      (caretRow width column).toList = gap ++ List.replicate (column - 1).toNat ' ' ++ ['^'] ∧
      lead.length = gap.length ∧ (∀ x ∈ above ++ below, x.2 ≠ line) ∧
      ∀ r ∈ rows, '\n' ∉ r.toList

theorem window_spec {count line : Nat} {radius : Int} (hr : 0 ≤ radius) (hl : 1 ≤ line)
    (hc : line ≤ count) :
    let (first, last) := window count line radius
    1 ≤ first ∧ first ≤ line ∧ line ≤ last ∧ last ≤ count := by
  simp only [window]
  omega

def numbered (all : List (List Char)) (first count : Nat) : List (List Char × Nat) :=
  ((all.drop (first - 1)).take count).zipIdx first

theorem mem_numbered {all : List (List Char)} {first count : Nat} (hf : 1 ≤ first)
    {x : List Char × Nat} (hx : x ∈ numbered all first count) :
    all[x.2 - 1]? = some x.1 ∧ first ≤ x.2 ∧ x.2 < first + count := by
  obtain ⟨le, hx⟩ := List.mk_mem_zipIdx_iff_le_and_getElem?_sub.1 hx
  obtain ⟨lt, -⟩ := List.getElem?_eq_some_iff.1 hx
  rw [List.length_take] at lt
  rw [List.getElem?_take_of_lt (by omega), List.getElem?_drop,
    show first - 1 + (x.2 - first) = x.2 - 1 by omega] at hx
  exact ⟨hx, le, by omega⟩

theorem numbered_split {all : List (List Char)} {first line last : Nat} (hf : 1 ≤ first)
    (hl : first ≤ line) (hlast : line ≤ last) {content : List Char}
    (h : all[line - 1]? = some content) :
    numbered all first (last + 1 - first) = numbered all first (line - first) ++
      (content, line) :: numbered all (line + 1) (last - line) := by
  obtain ⟨inside, rfl⟩ := List.getElem?_eq_some_iff.1 h
  have length_above : ((all.drop (first - 1)).take (line - first)).length = line - first := by
    rw [List.length_take, List.length_drop]
    omega
  have rest : (all.drop (first - 1)).drop (line - first) = all[line - 1] :: all.drop line := by
    rw [List.drop_drop, show first - 1 + (line - first) = line - 1 by omega,
      List.drop_eq_getElem_cons inside, Nat.sub_add_cancel (by omega)]
  have count : last + 1 - first = line - first + (last - line + 1) := by omega
  rw [numbered, count, List.take_add, rest, List.take_succ_cons, List.zipIdx_append, length_above,
    List.zipIdx_cons, show first + (line - first) = line by omega]
  rfl

theorem excerptRows_eq (source : List Char) {line : Nat} (column : Int) {radius : Int}
    (hr : 0 ≤ radius) (hl : 1 ≤ line) {content : List Char}
    (h : (Text.lines source)[line - 1]? = some content) {first last : Nat}
    (hw : window (Text.lines source).length line radius = (first, last)) :
    excerptRows source line (some column) radius =
      (numbered (Text.lines source) first (line - first)).map
          (plainRow (Number.natDigits last).length) ++
        [row ">" (Number.natDigits last).length line content,
          caretRow (Number.natDigits last).length column] ++
        (numbered (Text.lines source) (line + 1) (last - line)).map
          (plainRow (Number.natDigits last).length) := by
  obtain ⟨inside, -⟩ := List.getElem?_eq_some_iff.1 h
  have bounds := window_spec hr hl (by omega : line ≤ (Text.lines source).length)
  rw [hw] at bounds
  obtain ⟨first_pos, first_le, le_last, -⟩ := bounds
  set width := (Number.natDigits last).length
  have shown_eq : excerptRows source line (some column) radius =
      (numbered (Text.lines source) first (last + 1 - first)).flatMap
        fun x => rows width line (some column) x.2 x.1 := by
    unfold excerptRows
    rw [if_neg (by omega), Int.toNat_natCast, hw]
    rfl
  have plain {xs : List (List Char × Nat)} (hxs : ∀ x ∈ xs, x.2 ≠ line) :
      xs.flatMap (fun x => rows width line (some column) x.2 x.1) = xs.map (plainRow width) := by
    rw [List.map_eq_flatMap]
    exact List.flatMap_congr fun x hx => if_neg (hxs x hx)
  have above : ∀ x ∈ numbered (Text.lines source) first (line - first), x.2 ≠ line := by
    intro x hx
    have := mem_numbered first_pos hx
    omega
  have below : ∀ x ∈ numbered (Text.lines source) (line + 1) (last - line), x.2 ≠ line := by
    intro x hx
    have := mem_numbered (by omega) hx
    omega
  rw [shown_eq, numbered_split first_pos first_le le_last h, List.flatMap_append,
    List.flatMap_cons, plain above, plain below, List.append_assoc]
  simp [rows]

theorem singleLine_excerptRows (source : List Char) (line : Int) (column : Option Int)
    (radius : Int) : ∀ r ∈ excerptRows source line column radius, SingleLine r.toList := by
  intro r hr
  have marks : SingleLine ">".toList ∧ SingleLine " ".toList := by
    simp [SingleLine, Text.isLineBreak]
  simp only [excerptRows] at hr
  split at hr
  · cases hr
  · obtain ⟨x, hx, hr⟩ := List.mem_flatMap.1 hr
    have content : SingleLine x.1 := Text.isLineBreak_of_mem_lines source x.1
      (List.mem_of_mem_drop (List.mem_of_mem_take (List.fst_mem_of_mem_zipIdx hx)))
    simp only [rows] at hr
    split at hr
    · rcases List.mem_cons.1 hr with rfl | hr
      · exact singleLine_row marks.1 _ _ content
      · obtain ⟨column, -, rfl⟩ := Option.map_eq_some_iff.1 (Option.mem_toList.1 hr)
        exact singleLine_caretRow _ column
    · rw [List.mem_singleton.1 hr]
      exact singleLine_row marks.2 _ _ content

end Excerpt

open Excerpt

theorem marks_excerptRows (source : List Char) {line : Nat} (column : Int) {radius : Int}
    (hr : 0 ≤ radius) (hl : 1 ≤ line) (hc : line ≤ (Text.lines source).length) :
    ∃ content, (Text.lines source)[line - 1]? = some content ∧
      Marks (excerptRows source line (some column) radius) line column content := by
  obtain ⟨content, content_eq⟩ : ∃ content, (Text.lines source)[line - 1]? = some content :=
    ⟨_, List.getElem?_eq_getElem (by omega)⟩
  have bounds := window_spec hr hl hc
  rcases hw : window (Text.lines source).length line radius with ⟨first, last⟩
  rw [hw] at bounds
  obtain ⟨first_pos, first_le, le_last, -⟩ := bounds
  have others : ∀ x ∈ numbered (Text.lines source) first (line - first) ++
      numbered (Text.lines source) (line + 1) (last - line), x.2 ≠ line := by
    intro x hx
    rcases List.mem_append.1 hx with hx | hx
    · have := mem_numbered first_pos hx
      omega
    · have := mem_numbered (by omega) hx
      omega
  exact ⟨content, content_eq, _, _, _, lead ">" _ line, gap _,
    excerptRows_eq source column hr hl content_eq hw, toList_row ">" _ line content,
    toList_caretRow _ column, length_lead rfl (length_natDigits_mono le_last), others,
    fun r hr feed => absurd (singleLine_excerptRows source _ _ _ r hr _ feed) (by decide)⟩

theorem Excerpt.Marks.intercalate_isEmpty {rows : List String} {line : Nat} {column : Int}
    {content : List Char} (h : Marks rows line column content) :
    ("\n".intercalate rows).isEmpty = false := by
  obtain ⟨width, above, below, lead, gap, rfl, -⟩ := h
  rw [List.append_assoc, List.cons_append, List.singleton_append, List.append_cons,
    String.intercalate_append_of_ne_nil (by simp) (by simp)]
  apply Bool.eq_false_iff.2
  intro empty
  have chars := congrArg String.toList (String.isEmpty_iff.1 empty)
  simp at chars

end ScopedScript
