import ScopedScript.Proofs.Token.Joined
import ScopedScript.Text.Lines

namespace ScopedScript

namespace Text

/-- No line boundary in the first `n` lines but line feeds, and carriage returns in front of
them. -/
def LineFeedsOnly (n : Nat) (cs : List Char) : Prop :=
  ∀ before c behind, cs = before ++ c :: behind → before.count '\n' < n → isLineBreak c = true →
    c = '\n' ∨ c = '\r' ∧ behind.head? = some '\n'

theorem lineFeedsOnly_iff {n : Nat} {cs : List Char} :
    LineFeedsOnly n cs ↔ ∀ (k : Nat) (hk : k < cs.length), (cs.take k).count '\n' < n →
      isLineBreak cs[k] = true → cs[k] = '\n' ∨ cs[k] = '\r' ∧ cs[k + 1]? = some '\n' := by
  constructor
  · intro h k hk
    have split : cs = cs.take k ++ cs[k] :: cs.drop (k + 1) := by simp
    simpa only [List.head?_drop] using h _ _ _ split
  · rintro h before c behind rfl
    have next : (before ++ c :: behind)[before.length + 1]? = behind.head? := by
      rw [List.getElem?_append_right (Nat.le_succ _)]
      simp [List.head?_eq_getElem?]
    simpa [next] using h before.length (by simp)

instance (n : Nat) (cs : List Char) : Decidable (LineFeedsOnly n cs) :=
  decidable_of_iff' _ lineFeedsOnly_iff

theorem isLineBreak_lineFeed : isLineBreak '\n' = true := by decide

theorem LineFeedsOnly.tail {n : Nat} {c : Char} {cs : List Char} (h : LineFeedsOnly n (c :: cs))
    (hc : c ≠ '\n') : LineFeedsOnly n cs := by
  intro before d behind hcs hn
  refine h (c :: before) d behind (by rw [hcs, List.cons_append]) ?_
  simpa [List.count_cons, hc] using hn

theorem LineFeedsOnly.behind {n : Nat} {line cs : List Char}
    (h : LineFeedsOnly (n + 1) (line ++ '\n' :: cs)) (hl : '\n' ∉ line) : LineFeedsOnly n cs := by
  intro before d behind hcs hn
  refine h (line ++ '\n' :: before) d behind (by simp [hcs]) ?_
  rw [List.count_append, List.count_eq_zero_of_not_mem hl, List.count_cons_self]
  omega

theorem lines_cons {c : Char} (hc : isLineBreak c = false) (cs : List Char) :
    lines (c :: cs) = match lines cs with
      | [] => [[c]]
      | line :: rest => (c :: line) :: rest := by
  rw [lines]
  · refine (if_neg (by simp [hc])).trans ?_
    cases lines cs <;> rfl
  · rintro ds rfl
    exact absurd hc (by decide)

theorem lines_cons_break {c : Char} (hc : isLineBreak c = true) {cs : List Char}
    (hcr : c = '\r' → cs.head? ≠ some '\n') : lines (c :: cs) = [] :: lines cs := by
  rw [lines]
  · simp [hc]
  · rintro ds rfl rfl
    exact hcr rfl rfl

theorem lines_append_lineFeed {line cs : List Char} (hl : '\n' ∉ line)
    (h : LineFeedsOnly 1 (line ++ '\n' :: cs)) :
    ∃ content, (line = content ∨ line = content ++ ['\r']) ∧
      lines (line ++ '\n' :: cs) = content :: lines cs := by
  induction line with
  | nil => exact ⟨[], .inl rfl, lines_cons_break (by decide) (by simp)⟩
  | cons c line ih =>
    obtain ⟨hc, hline⟩ : c ≠ '\n' ∧ '\n' ∉ line := by
      simpa [eq_comm] using hl
    cases hb : isLineBreak c with
    | true =>
      obtain rfl | ⟨rfl, head⟩ := h [] c (line ++ '\n' :: cs) rfl Nat.one_pos hb
      · exact absurd rfl hc
      · cases line with
        | nil => exact ⟨[], .inr rfl, by rw [List.singleton_append, lines]⟩
        | cons d line => exact absurd (Option.some.inj head) fun e => hline (e ▸ List.mem_cons_self)
    | false =>
      obtain ⟨content, hcontent, cut⟩ := ih hline (h.tail hc)
      refine ⟨c :: content, ?_, by rw [List.cons_append, lines_cons hb, cut]⟩
      rcases hcontent with rfl | rfl
      · exact .inl rfl
      · exact .inr rfl

theorem lines_of_not_mem {line : List Char} (hl : '\n' ∉ line) (h : LineFeedsOnly 1 line) :
    lines line = if line = [] then [] else [line] := by
  induction line with
  | nil => rfl
  | cons c line ih =>
    obtain ⟨hc, hline⟩ : c ≠ '\n' ∧ '\n' ∉ line := by
      simpa [eq_comm] using hl
    cases hb : isLineBreak c with
    | true =>
      obtain rfl | ⟨-, head⟩ := h [] c line rfl Nat.one_pos hb
      · exact absurd rfl hc
      · exact absurd (List.mem_of_mem_head? head) hline
    | false =>
      rw [lines_cons hb, ih hline (h.tail hc)]
      by_cases empty : line = []
      · simp [empty]
      · simp [empty]

def ended (above : List (List Char)) : List Char := above.flatMap (· ++ ['\n'])

@[simp] theorem ended_nil : ended [] = [] := rfl

@[simp] theorem ended_cons (line : List Char) (above : List (List Char)) :
    ended (line :: above) = line ++ '\n' :: ended above := by
  simp [ended]

theorem exists_first_line (cs : List Char) :
    ∃ line rest, cs = line ++ rest ∧ '\n' ∉ line ∧ (rest = [] ∨ ∃ ds, rest = '\n' :: ds) := by
  induction cs with
  | nil => exact ⟨[], [], rfl, by simp, .inl rfl⟩
  | cons c cs ih =>
    by_cases hc : c = '\n'
    · exact ⟨[], c :: cs, rfl, by simp, .inr ⟨cs, by rw [hc]⟩⟩
    · obtain ⟨line, rest, hcs, hl, hrest⟩ := ih
      exact ⟨c :: line, rest, by rw [hcs, List.cons_append], by simpa [Ne.symm hc] using hl, hrest⟩

theorem exists_lines_above (before : List Char) :
    ∃ (above : List (List Char)) (left : List Char),
      before = ended above ++ left ∧ (∀ line ∈ above, '\n' ∉ line) ∧
        '\n' ∉ left ∧ above.length = before.count '\n' := by
  induction before with
  | nil => exact ⟨[], [], rfl, by simp, by simp, rfl⟩
  | cons c before ih =>
    obtain ⟨above, left, hbefore, ha, hl, hn⟩ := ih
    by_cases hc : c = '\n'
    · exact ⟨[] :: above, left, by simp [hc, hbefore], by simpa using ha, hl, by simp [hc, hn]⟩
    · cases above with
      | nil =>
        exact ⟨[], c :: left, by simpa using hbefore, by simp, by simpa [Ne.symm hc] using hl,
          by simpa [hc] using hn⟩
      | cons line above =>
        exact ⟨(c :: line) :: above, left, by simpa using hbefore,
          by simpa [Ne.symm hc] using ha, hl, by simpa [hc] using hn⟩

theorem getElem?_splitOn {above : List (List Char)} (ha : ∀ line ∈ above, '\n' ∉ line)
    {line rest : List Char} (hl : '\n' ∉ line) (hrest : rest = [] ∨ ∃ ds, rest = '\n' :: ds) :
    ((ended above ++ (line ++ rest)).splitOn '\n')[above.length]? =
      some line := by
  induction above with
  | nil =>
    obtain rfl | ⟨ds, rfl⟩ := hrest
    · simp [List.splitOn_eq_singleton hl]
    · simp [List.splitOn_append_cons_self_of_not_mem hl]
  | cons first above ih =>
    obtain ⟨hfirst, habove⟩ := List.forall_mem_cons.1 ha
    rw [ended_cons, List.append_assoc, List.cons_append,
      List.splitOn_append_cons_self_of_not_mem hfirst, List.length_cons, List.getElem?_cons_succ,
      ih habove]

theorem getElem?_lines {above : List (List Char)} (ha : ∀ line ∈ above, '\n' ∉ line)
    {line rest content : List Char} (hl : '\n' ∉ line)
    (hrest : rest = [] ∨ ∃ ds, rest = '\n' :: ds)
    (h : LineFeedsOnly (above.length + 1) (ended above ++ (line ++ rest)))
    (hc : (lines (ended above ++ (line ++ rest)))[above.length]? = some content) :
    line = content ∨ line = content ++ ['\r'] := by
  induction above with
  | nil =>
    simp only [ended_nil, List.nil_append, List.length_nil] at h hc
    obtain rfl | ⟨ds, rfl⟩ := hrest
    · rw [List.append_nil] at h hc
      rw [lines_of_not_mem hl h] at hc
      split at hc
      · cases hc
      · exact .inl (Option.some.inj hc)
    · obtain ⟨content', hline, cut⟩ := lines_append_lineFeed hl h
      rw [cut] at hc
      cases hc
      exact hline
  | cons first above ih =>
    obtain ⟨hfirst, habove⟩ := List.forall_mem_cons.1 ha
    rw [ended_cons, List.append_assoc, List.cons_append] at h hc
    obtain ⟨content', -, cut⟩ :=
      lines_append_lineFeed hfirst (fun b c d e hb => h b c d e (by omega))
    rw [cut, List.length_cons, List.getElem?_cons_succ] at hc
    exact ih habove (h.behind hfirst) hc

def openLines (cs : List Char) : Nat := if cs = [] ∨ cs.getLast? = some '\n' then 0 else 1

theorem openLines_cons_cons (c d : Char) (cs : List Char) :
    openLines (c :: d :: cs) = openLines (d :: cs) := by
  simp [openLines, List.getLast?_cons_cons]

theorem openLines_cons_le (c : Char) (cs : List Char) :
    (c :: cs).count '\n' + openLines (c :: cs) ≤ cs.count '\n' + openLines cs + 1 := by
  cases cs with
  | nil => by_cases hc : c = '\n' <;> simp [openLines, hc]
  | cons d ds =>
    rw [openLines_cons_cons, List.count_cons]
    split <;> omega

theorem length_lines (cs : List Char) : cs.count '\n' + openLines cs ≤ (lines cs).length := by
  fun_induction lines cs with
  | case1 => simp [openLines]
  | case2 cs ih =>
    have step := openLines_cons_le '\n' cs
    rw [openLines_cons_cons, List.count_cons_of_ne (by decide), List.length_cons]
    omega
  | case3 c cs hcr hb ih =>
    have step := openLines_cons_le c cs
    rw [List.length_cons]
    omega
  | case4 c cs hcr hb hnil ih =>
    have step := openLines_cons_le c cs
    rw [hnil] at ih
    simp only [List.length_nil, List.length_cons] at ih ⊢
    omega
  | case5 c cs hcr hb line rest hl ih =>
    have hc : c ≠ '\n' := by
      rintro rfl
      exact hb isLineBreak_lineFeed
    cases cs with
    | nil => cases hl
    | cons d ds =>
      rw [openLines_cons_cons, List.count_cons_of_ne hc]
      simpa [hl] using ih

theorem isLineBreak_of_mem_lines (cs : List Char) :
    ∀ line ∈ lines cs, ∀ c ∈ line, isLineBreak c = false := by
  fun_induction lines cs with
  | case1 => simp
  | case2 cs ih => simpa using ih
  | case3 c cs hcr hb ih => simpa using ih
  | case4 c cs hcr hb hnil ih => simpa using hb
  | case5 c cs hcr hb first rest hl ih =>
    rw [hl] at ih
    obtain ⟨hfirst, hrest⟩ := List.forall_mem_cons.1 ih
    simpa using ⟨⟨by simpa using hb, hfirst⟩, hrest⟩

end Text

end ScopedScript
