import ScopedScript.Datum.Printer
import ScopedScript.Proofs.Expr.RoundTrip
import ScopedScript.Proofs.Parser.Exact.Statement

namespace ScopedScript

def Block.unplaced (b : Block) : Block := Block.relocate (fun _ => {}) b

namespace Token

def var : Token := ⟨.wordVar, "var", .null, {}⟩

def equal : Token := ⟨.equal, "=", .null, {}⟩

def semicolon : Token := ⟨.semicolon, ";", .null, {}⟩

end Token

abbrev Declaration := String × Expr

namespace Declaration

def text (d : Declaration) : String := declarationText d.1 d.2.render

def name (d : Declaration) : Name := ⟨d.1, {}⟩

def statement (d : Declaration) : Statement := .declare d.name (some d.2.unplaced)

def tokens (d : Declaration) : List Token :=
  .var :: d.name.token :: .equal :: (d.2.written ++ [.semicolon])

/-- The declaration can be written and read back. An expression with fewer tokens than half of the
limit of depth cannot be nested too deep. -/
structure Printable (d : Declaration) : Prop where
  name : Lexicon.standard.Makes d.name.token
  expr : d.2.Printable
  short : 2 * d.2.written.length < Parser.depthLimit

variable {d : Declaration}

open Lexicon

theorem makes_var : standard.Makes .var :=
  ⟨⟨.word, ['v', 'a', 'r'], {}⟩, 'v', ['a', 'r'], 2, by decide +kernel, rfl, by decide +kernel⟩

theorem cuts_equal (ds : List Char) : standard.Cuts ['='] [.equal] ds :=
  (Spelling.Alone.cutsBefore (s := ⟨.equal, '=', []⟩) (by decide +kernel) ds {}).cuts

theorem cuts_semicolon (ds : List Char) : standard.Cuts [';'] [.semicolon] ds :=
  (Spelling.Alone.cutsBefore (s := ⟨.semicolon, ';', []⟩) (by decide +kernel) ds {}).cuts

theorem Printable.cuts (h : d.Printable) (ds : List Char) :
    standard.Cuts d.text.toList d.tokens ds := by
  have ending := (h.expr.cuts _ (delimited_semicolon ds)).append (cuts_semicolon ds)
  have value := (cuts_equal _).append ((cuts_blank _).append ending)
  have name := (h.name.cutsBefore delimits_standard (delimited_blank _)).cuts.append
    ((cuts_blank _).append value)
  have var := (makes_var.cutsBefore delimits_standard (delimited_blank _)).cuts.append
    ((cuts_blank _).append name)
  have chars : d.text.toList = ['v', 'a', 'r'] ++ ([' '] ++ (d.1.toList ++ ([' '] ++
      (['='] ++ ([' '] ++ (d.2.render.toList ++ [';'])))))) := by
    simp [text, declarationText]
  rw [chars]
  exact var

theorem cuts_lines {entries : List Declaration} (h : ∀ d ∈ entries, d.Printable)
    (ds : List Char) :
    standard.Cuts ("\n".intercalate (entries.map text)).toList (entries.flatMap tokens) ds := by
  induction entries with
  | nil => exact .nil ds
  | cons d entries ih =>
    have rest := ih fun e he => h e (List.mem_cons_of_mem _ he)
    have first := h d List.mem_cons_self
    cases entries with
    | nil => simpa using first.cuts ds
    | cons e entries =>
      have chars : ("\n".intercalate ((d :: e :: entries).map text)).toList =
          d.text.toList ++ (['\n'] ++ ("\n".intercalate ((e :: entries).map text)).toList) := by
        simp [String.intercalate_cons_cons]
      rw [chars]
      exact (first.cuts _).append ((cuts_spacing rfl _).append rest)

end Declaration

open ScopedScript.Parser

theorem Declaration.Printable.reads {d : Declaration} (h : d.Printable) (stop : Location)
    {us : List Token} (vs : List Token)
    (hus : us.map Token.unplaced = d.tokens.map Token.unplaced) :
    ∃ s, Parser.statement .standard stop depthLimit (us ++ vs) = .done (some s) vs ∧
      s.relocate (fun _ => {}) = d.statement := by
  obtain ⟨t, _, rfl, ht, hus⟩ := List.map_eq_cons_iff.1 hus
  obtain ⟨n, _, rfl, hn, hus⟩ := List.map_eq_cons_iff.1 hus
  obtain ⟨q, _, rfl, hq, hus⟩ := List.map_eq_cons_iff.1 hus
  rw [List.map_append] at hus
  obtain ⟨es, _, rfl, hes, hus⟩ := List.map_eq_append_iff.1 hus
  obtain ⟨s, rfl, hs⟩ := List.map_eq_singleton_iff.1 hus
  have var : t.kind = .wordVar := Token.kind_eq_of_unplaced (u := .var) ht
  have identifier : n.kind = .identifier := Token.kind_eq_of_unplaced hn
  have lexeme : n.lexeme = d.1 := congrArg Token.lexeme hn
  have equal : q.kind = .equal := Token.kind_eq_of_unplaced (u := .equal) hq
  have semicolon : s.kind = .semicolon := Token.kind_eq_of_unplaced (u := .semicolon) hs
  have level : headLevel .standard (s :: vs) ≤ .assignment := by
    rw [headLevel_cons, semicolon]
    decide
  -- a statement leaves its expression one level of depth less
  obtain ⟨e, read, same⟩ : ∃ e, expression .standard stop 999 .assignment (es ++ s :: vs) =
      .done e (s :: vs) ∧ e.unplaced = d.2.unplaced := by
    rcases (h.expr.reads stop).2 es (s :: vs) 999 hes level with ⟨e, _, read, rfl, same⟩ | ⟨deep, -⟩
    · exact ⟨e, read, same⟩
    · have length : es.length = d.2.written.length := by simpa using congrArg List.length hes
      have short : 2 * d.2.written.length < 1000 := h.short
      omega
  have ends := ended_done.2 ⟨_, read, skip_takes semicolon vs⟩
  refine ⟨.declare n.toName (some e), ?_, ?_⟩
  · have tokens : t :: n :: q :: (es ++ [s]) ++ vs = t :: n :: q :: (es ++ s :: vs) := by simp
    rw [tokens, depthLimit, statement_var var]
    refine bind_done.2 ⟨.declare n.toName (some e), vs, ?_, rfl⟩
    rw [declaration_equal identifier equal, bind_of_done ends]
    rfl
  · rw [Statement.relocate, Option.map_some, Name.relocate, Token.toName, lexeme]
    exact congrArg (Statement.declare ⟨d.1, {}⟩ ∘ some) same

theorem declarations_read {entries : List Declaration} (h : ∀ d ∈ entries, d.Printable)
    (stop : Location) {us : List Token} (hus : us.map Token.unplaced =
      (entries.flatMap Declaration.tokens).map Token.unplaced) :
    ∃ b, ReadsAs atEnd (statement .standard stop depthLimit) us b [] ∧
      b.unplaced = entries.map Declaration.statement := by
  induction entries generalizing us with
  | nil =>
    obtain rfl := List.map_eq_nil_iff.1 hus
    exact ⟨[], readsAs_nil _, rfl⟩
  | cons d entries ih =>
    rw [List.flatMap_cons, List.map_append] at hus
    obtain ⟨ts, vs, rfl, hts, hvs⟩ := List.map_eq_append_iff.1 hus
    obtain ⟨s, read, first⟩ := (h d List.mem_cons_self).reads stop vs hts
    obtain ⟨b, rest, block⟩ := ih (fun e he => h e (List.mem_cons_of_mem _ he)) hvs
    obtain ⟨t, ts, rfl, -, -⟩ := List.map_eq_cons_iff.1 hts
    exact ⟨s :: b, rest.cons rfl read (by simp), congrArg₂ List.cons first block⟩

theorem parse_declarations {entries : List Declaration} (h : ∀ d ∈ entries, d.Printable) :
    ∃ program, Lexicon.standard.parse ("\n".intercalate (entries.map Declaration.text)) =
      .ok program ∧ program.unplaced = entries.map Declaration.statement := by
  obtain ⟨tokens, stop, scanned, same⟩ := (Declaration.cuts_lines h []).tokenize
  obtain ⟨program, read, block⟩ := declarations_read h stop same
  exact ⟨program, by rw [Lexicon.parse, scanned]; exact read.parseWithin, block⟩

end ScopedScript
