import ScopedScript.Proofs.Syntax.Relocation
import ScopedScript.Proofs.Token.Munch

namespace ScopedScript

namespace Location

def move (lines chars : Int) (l : Location) : Location :=
  ⟨l.line + lines, l.column, l.cursor + chars⟩

/-- Where a place of a source is when other characters and a line feed stand in front of it. -/
def below (cs : List Char) : Location → Location := move (cs.count '\n' + 1) (cs.length + 1)

theorem next_move (lines chars : Int) (l : Location) (c : Char) :
    (l.move lines chars).next c = (l.next c).move lines chars := by
  unfold next
  split <;> simp [move, Int.add_right_comm]

theorem after_move (lines chars : Int) (l : Location) (cs : List Char) :
    (l.move lines chars).after cs = (l.after cs).move lines chars := by
  induction cs generalizing l with
  | nil => rfl
  | cons c cs ih => rw [after_cons, after_cons, next_move, ih]

theorem shift_move (lines chars : Int) (l : Location) (n : Nat) :
    (l.move lines chars).shift n = (l.shift n).move lines chars := by
  simp [shift, move, Int.add_right_comm]

theorem line_after (l : Location) (cs : List Char) :
    (l.after cs).line = l.line + cs.count '\n' := by
  induction cs generalizing l with
  | nil => simp
  | cons c cs ih =>
    rw [after_cons, ih, next, List.count_cons]
    by_cases h : c = '\n'
    · simp [h]
      omega
    · simp [h]

theorem after_eq_shift {cs : List Char} (h : '\n' ∉ cs) (l : Location) :
    l.after cs = l.shift cs.length := by
  induction cs generalizing l with
  | nil => simp [shift]
  | cons c cs ih =>
    obtain ⟨hc, hcs⟩ : c ≠ '\n' ∧ '\n' ∉ cs := by
      simp only [List.mem_cons, not_or] at h
      exact ⟨fun e => h.1 e.symm, h.2⟩
    rw [after_cons, ih hcs, next, if_neg hc]
    simp only [shift, List.length_cons, mk.injEq, true_and]
    omega

theorem start_below (cs : List Char) :
    (({} : Location).after cs).next '\n' = below cs {} := by
  rw [next, if_pos rfl, line_after, cursor_after]
  simp [below, move]
  omega

end Location

variable (f : Location → Location)

def Piece.relocate (p : Piece) : Piece := { p with location := f p.location }

def Scan.relocate (s : Scan) : Scan where
  pieces := s.pieces.map (Piece.relocate f)
  stop := f s.stop
  unclosed := s.unclosed.map f
  rest := s.rest

namespace Lexicon

variable (l : Lexicon)

theorem endOf_move (lines chars : Int) (p : Location) (shape : Shape) (cs : List Char) :
    endOf (p.move lines chars) shape cs = (endOf p shape cs).move lines chars := by
  cases shape with
  | fixed => exact p.shift_move lines chars cs.length
  | _ => exact p.after_move lines chars cs

theorem scanFrom_move (lines chars : Int) (p : Location) (cs : List Char) :
    l.scanFrom (p.move lines chars) cs = (l.scanFrom p cs).relocate (.move lines chars) := by
  fun_induction scanFrom l p cs with
  | case1 => rw [scanFrom]; rfl
  | case2 p c cs h =>
    rw [scanFrom, h]
    simp [Scan.relocate, Location.after_move, Location.next_move]
  | case3 p c cs shape extra h chars scan ih =>
    rw [scanFrom, h]
    dsimp only
    rw [endOf_move, ih]
    rfl

theorem token?_relocate (p : Piece) :
    l.token? (p.relocate f) = (l.token? p).map (Token.relocate f) := by
  obtain ⟨shape, chars, location⟩ := p
  cases shape with
  | word =>
    simp only [token?, Piece.relocate]
    cases l.keyword? (String.ofList chars) <;> rfl
  | _ => rfl

theorem tokens_relocate (s : Scan) :
    l.tokens (s.relocate f) = (l.tokens s).map (Token.relocate f) := by
  simp only [tokens, Scan.relocate, List.filterMap_map, List.map_filterMap]
  exact congrArg (List.filterMap · s.pieces) (funext (l.token?_relocate f))

def Inline : Prop := ∀ s ∈ l.spellings, '\n' ∉ s.chars

theorem inline_standard : Inline standard := by
  unfold Inline
  decide +kernel

theorem takeWhile_append_of_head {q : Char → Bool} {ds : List Char}
    (hq : ∀ d, ds.head? = some d → q d = false) (cs : List Char) :
    (cs ++ ds).takeWhile q = cs.takeWhile q := by
  induction cs with
  | nil =>
    cases ds with
    | nil => rfl
    | cons d ds => exact List.takeWhile_cons_of_neg (by simp [hq d rfl])
  | cons c cs ih =>
    simp only [List.cons_append, List.takeWhile_cons]
    split
    · rw [ih]
    · rfl

theorem isPrefixOf_append_of_head {p ds : List Char} (hp : ∀ d, ds.head? = some d → d ∉ p)
    (cs : List Char) : p.isPrefixOf (cs ++ ds) = p.isPrefixOf cs := by
  induction p generalizing cs with
  | nil => simp
  | cons a p ih =>
    have rest (d : Char) (hd : ds.head? = some d) : d ∉ p :=
      fun h => hp d hd (List.mem_cons_of_mem a h)
    cases cs with
    | cons c cs => rw [List.cons_append, List.isPrefixOf, List.isPrefixOf, ih rest]
    | nil =>
      cases ds with
      | nil => rfl
      | cons d ds =>
        have other : (a == d) = false := by
          refine beq_false_of_ne fun e => ?_
          exact hp d rfl (e ▸ List.mem_cons_self)
        simp [List.isPrefixOf, other]

variable {l}

theorem munch_join (hl : l.Inline) {c : Char} {cs : List Char} {shape : Shape} {n : Nat}
    (h : l.munch c cs = some (shape, n)) (ds : List Char) :
    l.munch c (cs ++ '\n' :: ds) = some (shape, n) := by
  have run {q : Char → Bool} (hq : q '\n' = false) :
      (cs ++ '\n' :: ds).takeWhile q = cs.takeWhile q := by
    refine takeWhile_append_of_head ?_ cs
    rintro d ⟨⟩
    exact hq
  have same : l.spellings.find? (·.matchesAt (c :: (cs ++ '\n' :: ds))) =
      l.spellings.find? (·.matchesAt (c :: cs)) := by
    refine List.find?_congr fun s hs => isPrefixOf_append_of_head ?_ (c :: cs)
    rintro d ⟨⟩
    exact hl s hs
  rw [← h, munch, munch, run (by decide), run (by decide), same]
  by_cases spacing : isSpacing c = true
  · rw [if_pos spacing, if_pos spacing]
  rw [if_neg spacing, if_neg spacing]
  by_cases quote : c = '"'
  · rw [munch, if_neg spacing, if_pos quote] at h
    obtain ⟨k, hk, -⟩ := Option.map_eq_some_iff.1 h
    rw [if_pos quote, if_pos quote, hk, List.idxOf?, List.findIdx?_append, ← List.idxOf?, hk]
    rfl
  · rw [if_neg quote, if_neg quote]

theorem endOf_eq_after (hl : l.Inline) {c : Char} {cs : List Char} {shape : Shape} {n : Nat}
    (h : l.munch c cs = some (shape, n)) (p : Location) :
    endOf p shape (c :: cs.take n) = p.after (c :: cs.take n) := by
  cases shape with
  | fixed kind =>
    obtain ⟨s, hs, -, e⟩ := munch_fixed h
    have inline := hl s hs
    rw [e] at inline
    exact (Location.after_eq_shift inline p).symm
  | _ => rfl

theorem scanFrom_join (hl : l.Inline) (p : Location) (cs ds : List Char)
    (h : (l.scanFrom p cs).unclosed = none) :
    let blank : Piece := ⟨.blank, ['\n'], p.after cs⟩
    let below := l.scanFrom ((p.after cs).next '\n') ds
    l.scanFrom p (cs ++ '\n' :: ds) =
      { below with pieces := (l.scanFrom p cs).pieces ++ blank :: below.pieces } := by
  intro blank below
  fun_induction scanFrom l p cs with
  | case1 => rw [List.nil_append, scanFrom]; rfl
  | case2 => cases h
  | case3 p c cs shape extra hm chars scan ih =>
    have end_eq : (endOf p shape chars).after (cs.drop extra) = p.after (c :: cs) := by
      rw [endOf_eq_after hl hm, ← Location.after_append, List.cons_append, List.take_append_drop]
    have rest : (cs ++ '\n' :: ds).drop extra = cs.drop extra ++ '\n' :: ds :=
      List.drop_append_of_le_length (munch_le hm)
    have first : (cs ++ '\n' :: ds).take extra = cs.take extra :=
      List.take_append_of_le_length (munch_le hm)
    rw [List.cons_append, scanFrom, munch_join hl hm]
    dsimp only
    rw [first, rest, ih h, end_eq]
    rfl

theorem tokenize_eq_ok_iff {source : String} {ts : List Token} {stop : Location} :
    l.tokenize source = .ok (ts, stop) ↔ (l.scan source).error? = none ∧
      l.tokens (l.scan source) = ts ∧ (l.scan source).stop = stop := by
  unfold tokenize
  dsimp only
  cases (l.scan source).error? with
  | some e => simp
  | none => simp

theorem tokens_joined (hl : l.Inline) (first second : String)
    (h : (l.scan first).error? = none) :
    let f := Location.below first.toList
    let joined := l.scan (first ++ "\n" ++ second)
    l.tokens joined = l.tokens (l.scan first) ++
        (l.tokens (l.scan second)).map (Token.relocate f) ∧
      joined.stop = f (l.scan second).stop ∧
      joined.error? = (l.scan second).error?.map fun e =>
        { e with location := e.location.map f } := by
  intro f joined
  have unclosed : (l.scan first).unclosed = none := by simpa [Scan.error?] using h
  have chars : (first ++ "\n" ++ second).toList = first.toList ++ '\n' :: second.toList := by
    simp
  have cut := scanFrom_join hl {} first.toList second.toList unclosed
  dsimp only at cut
  rw [← chars, Location.start_below, Location.below, l.scanFrom_move] at cut
  have joined_eq : joined = _ := cut
  rw [joined_eq]
  refine ⟨?_, rfl, ?_⟩
  · have below := l.tokens_relocate f (l.scan second)
    simp only [tokens] at below ⊢
    rw [List.filterMap_append]
    exact congrArg _ below
  · simp only [Scan.error?, Scan.relocate, Option.map_map]
    rfl

theorem tokenize_joined (hl : l.Inline) {first second : String} {ts us : List Token}
    {stop stop' : Location} (h : l.tokenize first = .ok (ts, stop))
    (h' : l.tokenize second = .ok (us, stop')) :
    l.tokenize (first ++ "\n" ++ second) =
      .ok (ts ++ us.map (Token.relocate (.below first.toList)), .below first.toList stop') := by
  obtain ⟨closed, rfl, -⟩ := tokenize_eq_ok_iff.1 h
  obtain ⟨closed', rfl, rfl⟩ := tokenize_eq_ok_iff.1 h'
  obtain ⟨tokens_eq, stop_eq, error_eq⟩ := tokens_joined hl first second closed
  rw [closed'] at error_eq
  exact tokenize_eq_ok_iff.2 ⟨error_eq, tokens_eq, stop_eq⟩

end Lexicon

end ScopedScript
