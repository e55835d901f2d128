import ScopedScript.Proofs.Report.Excerpt
import ScopedScript.Proofs.Session.Place

namespace ScopedScript

def ScriptError.headline (e : ScriptError) : String := e.kind.heading ++ ": " ++ e.text

theorem ScriptError.report_eq (e : ScriptError) (source : String) {place : Location}
    (h : e.location = some place) :
    e.report source =
      let rows := excerptRows source.toList place.line (some place.column) defaultRadius
      if ("\n".intercalate rows).isEmpty then e.headline
      else e.headline ++ "\n" ++ "\n".intercalate rows := by
  simp only [report, reportText, headline, text, ScriptError.place, h, Option.map_some, excerpt]

namespace Text

theorem column_after_ended (above : List (List Char)) {l : Location} (h : l.column = 1) :
    (l.after (ended above)).column = 1 := by
  induction above generalizing l with
  | nil => exact h
  | cons line above ih =>
    rw [ended_cons, Location.after_append, Location.after_cons]
    exact ih (by simp [Location.next])

theorem column_after (above : List (List Char)) {left : List Char} (hl : '\n' ∉ left) :
    (({} : Location).after (ended above ++ left)).column = left.length + 1 := by
  have start : (({} : Location).after (ended above)).column = 1 := column_after_ended above rfl
  rw [Location.after_append, Location.after_eq_shift hl, Location.shift, start]
  exact Int.add_comm _ _

theorem end_of_length_lines {before behind : List Char}
    (h : (lines (before ++ behind)).length < before.count '\n' + 1) :
    behind = [] ∧ (before = [] ∨ before.getLast? = some '\n') := by
  have counted := length_lines (before ++ behind)
  rw [List.count_append] at counted
  -- a line with anything in it is cut even if no line feed ends it
  have last : before ++ behind = [] ∨ (before ++ behind).getLast? = some '\n' := by
    apply Classical.byContradiction
    intro more
    have one : openLines (before ++ behind) = 1 := if_neg more
    omega
  have none : '\n' ∉ behind := List.count_eq_zero.1 (by omega)
  have empty : behind = [] := by
    cases hb : behind.getLast? with
    | none => exact List.getLast?_eq_none_iff.1 hb
    | some c =>
      rcases last with nil | lineFeed
      · exact (List.append_eq_nil_iff.1 nil).2
      · rw [List.getLast?_append, hb, Option.some_or] at lineFeed
        rw [lineFeed] at hb
        exact absurd (List.mem_of_getLast? hb) none
  rw [empty, List.append_nil] at last
  exact ⟨empty, last⟩

theorem exists_line (before behind : List Char) :
    ∃ left right, left <:+ before ∧ right <+: behind ∧
      (({} : Location).after before).column = left.length + 1 ∧
      ((before ++ behind).splitOn '\n')[before.count '\n']? = some (left ++ right) ∧
      ∀ content, LineFeedsOnly (before.count '\n' + 1) (before ++ behind) →
        (lines (before ++ behind))[before.count '\n']? = some content →
        left ++ right = content ∨ left ++ right = content ++ ['\r'] := by
  obtain ⟨above, left, rfl, ha, hl, hn⟩ := exists_lines_above before
  obtain ⟨right, rest, rfl, hr, hrest⟩ := exists_first_line behind
  have whole : '\n' ∉ left ++ right := by simp [hl, hr]
  have split : ended above ++ left ++ (right ++ rest) = ended above ++ (left ++ right ++ rest) := by
    simp
  refine ⟨left, right, List.suffix_append _ _, List.prefix_append _ _, column_after above hl, ?_,
    fun content only hc => ?_⟩
  · rw [← hn, split]
    exact getElem?_splitOn ha whole hrest
  · rw [← hn, split] at only hc
    exact getElem?_lines ha whole hrest only hc

end Text

namespace Session

/-- The first source of a session is reported with its place in it. The report marks the line with
the number of the place and has a caret under its column; what it shows as that line is cut at all
line boundaries. Where no other than line feeds, and carriage returns in front of them, stand above
and in the line, it is the line of the place: what stands in front of the place in it and behind.
Only behind a last line feed is there no line to show. -/
theorem report_marks_line (settings : Settings) (source : String) {a : Answer} {report : String}
    {place : Location} (ha : (start.handle settings source).1 = .ok a)
    (hr : a.error = some (report, some place)) :
    ∃ (e : ScriptError) (before behind : List Char),
      (start.run settings .standard source).result = .error (.error e) ∧
      e.location = some place ∧ source.toList = before ++ behind ∧
      place = ({} : Location).after before ∧
      let line := before.count '\n' + 1
      place.line = line ∧
      ((report = e.headline ∧ behind = [] ∧ (before = [] ∨ before.getLast? = some '\n')) ∨
        ∃ rows content, report = e.headline ++ "\n" ++ "\n".intercalate rows ∧
          Excerpt.Marks rows line place.column content ∧
          (Text.lines source.toList)[line - 1]? = some content ∧
          (Text.LineFeedsOnly line source.toList → ∃ left right,
            left <:+ before ∧ right <+: behind ∧ place.column = left.length + 1 ∧
              (source.toList.splitOn '\n')[line - 1]? = some (left ++ right) ∧
              (left ++ right = content ∨ left ++ right = content ++ ['\r']))) := by
  obtain ⟨e, he, hl, hreport⟩ := answer_reported ha hr
  obtain ⟨before, behind, hsource, hplace⟩ :=
    (placeIn_of_no_methods start_no_methods ha hr).exists_before Lexicon.inline_standard
  have line_eq : place.line = (before.count '\n' + 1 : Nat) := by
    rw [hplace, Location.line_after, Int.natCast_add]
    exact Int.add_comm _ _
  refine ⟨e, before, behind, he, hl, hsource, hplace, line_eq, ?_⟩
  rw [e.report_eq source hl, line_eq] at hreport
  dsimp only at hreport
  by_cases present : before.count '\n' + 1 ≤ (Text.lines source.toList).length
  · obtain ⟨content, cut, marks⟩ :=
      marks_excerptRows source.toList place.column (by decide : (0 : Int) ≤ defaultRadius)
        (Nat.le_add_left 1 _) present
    refine .inr ⟨_, content, ?_, marks, cut, fun only => ?_⟩
    · rw [hreport]
      exact if_neg (by rw [marks.intercalate_isEmpty]; decide)
    · obtain ⟨left, right, hleft, hright, column, counted, agree⟩ :=
        Text.exists_line before behind
      rw [Nat.add_sub_cancel, hsource] at cut
      rw [hsource] at only
      refine ⟨left, right, hleft, hright, hplace ▸ column, ?_, agree content only cut⟩
      rw [hsource]
      exact counted
  · have missing : (Text.lines (before ++ behind)).length < before.count '\n' + 1 := by
      rw [← hsource]
      omega
    refine .inl ⟨?_, Text.end_of_length_lines missing⟩
    have no_rows : excerptRows source.toList (before.count '\n' + 1 : Nat) (some place.column)
        defaultRadius = [] := if_pos (by omega)
    rw [hreport, no_rows]
    rfl

theorem report_marks_line_unknown_variable :
    let source := "var a = 1;\nif a < 2 \x7b\n  b = a;\r\n\x7d\n"
    let content := "  b = a;".toList
    ∃ (a : Answer) (e : ScriptError) (report : String) (rows : List String),
      (start.handle {} source).1 = .ok a ∧ a.error = some (report, some ⟨3, 3, 24⟩) ∧
      report = e.headline ++ "\n" ++ "\n".intercalate rows ∧ Excerpt.Marks rows 3 3 content ∧
      ∃ left right, left.length = 2 ∧ left ++ right = content ++ ['\r'] ∧
        (source.toList.splitOn '\n')[2]? = some (left ++ right) := by
  intro source content
  have reported : (start.handle {} source).1.toOption.bind (fun a => a.error.map Prod.snd) =
      some (some ⟨3, 3, 24⟩) := by decide +kernel
  have cut : (Text.lines source.toList)[2]? = some content := by decide +kernel
  have only : Text.LineFeedsOnly 3 source.toList := by decide +kernel
  have counted : (source.toList.splitOn '\n')[2]? = some (content ++ ['\r']) := by decide +kernel
  obtain ⟨a, report, ha, hr⟩ := exists_reported reported
  obtain ⟨e, before, behind, -, -, hsource, -, line_eq, cases⟩ := report_marks_line {} source ha hr
  have third : before.count '\n' = 2 := by
    simp only at line_eq
    omega
  rcases cases with ⟨-, rfl, -⟩ | ⟨rows, content', hreport, marks, cut', line⟩
  · rw [List.append_nil] at hsource
    rw [← hsource] at third
    exact absurd third (by decide +kernel)
  · rw [third] at marks cut' line
    obtain rfl : content = content' := Option.some.inj (cut.symm.trans cut')
    obtain ⟨left, right, -, -, column, whole, -⟩ := line only
    have column : left.length = 2 := by
      simp only at column
      omega
    exact ⟨a, e, report, rows, ha, hr, hreport, marks, left, right, column,
      Option.some.inj (whole.symm.trans counted), whole⟩

/-- Behind a form feed the line in front of the one with the error is marked. -/
theorem form_feed_misquoted :
    let source := "var a = 1;\x0Cvar b = 2;\nc = 3;"
    (start.handle {} source).1.toOption.bind Answer.error =
        some ("NameError: [2:1] No variable with name c\n" ++
          "  1 | var a = 1;\n> 2 | var b = 2;\n    | ^\n  3 | c = 3;", some ⟨2, 1, 22⟩) ∧
      (source.toList.splitOn '\n')[1]? = some "c = 3;".toList := by
  decide +kernel

end Session

end ScopedScript
