import ScopedScript.Proofs.Parser.Predictive.Statement
import ScopedScript.Proofs.Session.History
import ScopedScript.Proofs.Run.Scopewise

namespace ScopedScript

mutual

def Statement.literals : Statement → List Value
  | .declare _ none => []
  | .declare _ (some e) => e.literals
  | .method _ _ body => Block.literals body
  | .assign _ e => e.literals
  | .call _ arguments => arguments.flatMap Expr.literals
  | .branch _ condition body => condition.literals ++ Block.literals body
  | .loop _ condition body => condition.literals ++ Block.literals body

def Block.literals : List Statement → List Value
  | [] => []
  | s :: ss => s.literals ++ Block.literals ss

end

def Vocabulary.quotable : Vocabulary where
  declares _ := True
  assigns _ := True
  evaluates e := ∀ v ∈ e.literals, v.Quotable

mutual

theorem Statement.quotable_literals : ∀ {s : Statement}, s.Within .quotable →
    ∀ v ∈ s.literals, v.Quotable
  | .declare _ none, _ => fun _ hv => absurd hv List.not_mem_nil
  | .declare _ (some _), h => h.2
  | .method _ _ _, h => Block.quotable_literals h.2
  | .assign _ _, h => h.2
  | .call _ _, h => fun v hv => by
    obtain ⟨e, he, hv⟩ := List.mem_flatMap.1 hv
    exact h e he v hv
  | .branch _ _ _, h => List.forall_mem_append.2 ⟨h.1, Block.quotable_literals h.2⟩
  | .loop _ _ _, h => List.forall_mem_append.2 ⟨h.1, Block.quotable_literals h.2⟩

theorem Block.quotable_literals : ∀ {b : List Statement}, Block.Within .quotable b →
    ∀ v ∈ Block.literals b, v.Quotable
  | [], _ => fun _ hv => absurd hv List.not_mem_nil
  | _ :: _, h =>
    List.forall_mem_append.2 ⟨Statement.quotable_literals h.1, Block.quotable_literals h.2⟩

end

theorem Vocabulary.quotable_covers (l : Lexicon) : Vocabulary.quotable.Covers l l.Makes where
  declares _ _ := trivial
  assigns _ _ := trivial
  evaluates h ht v hv := by
    obtain ⟨t, hin, hl⟩ := h.exists_literal v hv
    exact Value.quotable_of_literal? (ht t hin).quotable hl

theorem within_quotable_of_parse {l : Lexicon} {source : String} {program : Block}
    (h : l.parse source = .ok program) : Block.Within .quotable program := by
  unfold Lexicon.parse at h
  split at h
  · cases h
  · rename_i tokens stop scanned
    obtain ⟨used, hused, derived⟩ := Parser.parseWithin_derives h
    refine derived.within (Vocabulary.quotable_covers l) fun t ht => ?_
    exact Lexicon.makes_of_tokenize scanned t (hused.subset ht)

structure Scope.Quotable (a : Scope Value) : Prop where
  vars (x : Variable Value) : x ∈ a.vars → x.value.Quotable
  bodies (m : Method) : m ∈ a.methods → Block.Within .quotable m.body

theorem Scope.upheld_quotable : Scope.Upheld .quotable Scope.Quotable where
  literals := id
  quotable h hx := h.vars _ hx
  bodies h hm := h.bodies _ hm
  empty _ _ := ⟨by simp, by simp⟩
  addVariable h _ _ quotable := by
    refine ⟨fun y hy => ?_, h.bodies⟩
    rcases List.mem_append.1 hy with hy | hy
    · exact h.vars y hy
    · rw [List.mem_singleton.1 hy]
      exact quotable
  set _ h quotable := by
    refine ⟨fun y hy => ?_, h.bodies⟩
    obtain ⟨x, hx, rfl⟩ := List.mem_map.1 hy
    split
    · exact quotable
    · exact h.vars x hx
  addMethod h within := by
    refine ⟨h.vars, fun n hn => ?_⟩
    rcases List.mem_append.1 hn with hn | hn
    · exact h.bodies n hn
    · rw [List.mem_singleton.1 hn]
      exact within

inductive Store.Holds (s : Store Value) (text : String) : Prop
  | value {i : ScopeId} {a : Scope Value} {x : Variable Value} : s.scopes[i]? = some a →
    x ∈ a.vars → x.value = .text text → Holds s text
  | literal {i : ScopeId} {a : Scope Value} {m : Method} : s.scopes[i]? = some a →
    m ∈ a.methods → .text text ∈ Block.literals m.body → Holds s text

theorem Store.Holds.unquoted {s : Store Value} {text : String} (h : s.Holds text)
    (quotable : s.Every Scope.Quotable) : '"' ∉ text.toList := by
  cases h with
  | @value i a x ha hx hv =>
    have held := (quotable i a ha).vars x hx
    rwa [hv] at held
  | @literal i a m ha hm hv => exact Block.quotable_literals ((quotable i a ha).bodies m hm) _ hv

namespace Session

/-- In a session that starts without bindings no text has a quotation mark inside, whatever sources
run, with whatever lexicons, and however the runs end. What is written for such a text is one token
of every lexicon, with the text as its value. -/
theorem held_text_unquoted (s : Session) (fresh : ∀ (i : ScopeId) (a : Scope Value),
      s.store.scopes[i]? = some a → a.vars = [] ∧ a.methods = [])
    (steps : List Step) {text : String}
    (held : (steps.foldl track (s, [])).1.store.Holds text) :
    '"' ∉ text.toList ∧ ∀ l : Lexicon, l.tokenize (Value.text text).render =
      .ok ([⟨.text, (Value.text text).render, .text text, {}⟩],
        ({} : Location).after (Value.text text).render.toList) := by
  have start : s.store.Every Scope.Quotable := by
    intro i a ha
    obtain ⟨vars, methods⟩ := fresh i a ha
    exact ⟨by simp [vars], by simp [methods]⟩
  have unquoted := held.unquoted (history_upheld Scope.upheld_quotable.every
    (fun _ _ _ => within_quotable_of_parse) steps (s, []) start)
  exact ⟨unquoted, fun l => Lexicon.tokenize_quoted unquoted⟩

theorem held_text_unquoted_failing_call :
    let l : Lexicon := { Lexicon.standard with
      spellings := ⟨.equal, '§', []⟩ :: Lexicon.standard.spellings }
    let steps := [Step.run {} l "var a § \"x\" * 3 - \"x\"; var f() \x7b a § a + \"y\nz\"; \x7d",
      .enter, .run {} .standard "f(); var b = a + 1; b();"]
    let t := (steps.foldl track (start, [])).1
    t.store.Holds "xxy\nz" ∧ t.store.Holds "xxy\nz1" ∧ t.store.Holds "y\nz" ∧
      '"' ∉ "xxy\nz1".toList ∧ l.tokenize (Value.text "xxy\nz1").render =
        .ok ([⟨.text, (Value.text "xxy\nz1").render, .text "xxy\nz1", {}⟩],
          ({} : Location).after (Value.text "xxy\nz1").render.toList) := by
  intro l steps t
  have fresh : ∀ (i : ScopeId) (a : Scope Value), start.store.scopes[i]? = some a →
      a.vars = [] ∧ a.methods = [] := by
    intro i a ha
    obtain ⟨hi, rfl⟩ := Array.getElem?_eq_some_iff.1 ha
    obtain rfl : i = 0 := Nat.lt_one_iff.1 hi
    exact ⟨rfl, rfl⟩
  have outer : t.store.scopes[0]?.map (fun a => (a.vars.map Variable.value,
      a.methods.flatMap fun m => Block.literals m.body)) =
        some ([.text "xxy\nz"], [.text "y\nz"]) := by decide +kernel
  have inner : t.store.scopes[2]?.map (fun a => a.vars.map Variable.value) =
      some [.text "xxy\nz1"] := by decide +kernel
  obtain ⟨a, ha, bound⟩ := Option.map_eq_some_iff.1 outer
  obtain ⟨values, literals⟩ := Prod.mk.inj bound
  obtain ⟨b, hb, values'⟩ := Option.map_eq_some_iff.1 inner
  obtain ⟨x, hx, hvx⟩ := List.mem_map.1 (values ▸ List.mem_singleton_self _)
  obtain ⟨y, hy, hvy⟩ := List.mem_map.1 (values' ▸ List.mem_singleton_self _)
  obtain ⟨m, hm, hl⟩ := List.mem_flatMap.1 (literals ▸ List.mem_singleton_self _)
  have held : t.store.Holds "xxy\nz1" := .value hb hy hvy
  obtain ⟨unquoted, read⟩ := held_text_unquoted start fresh steps held
  exact ⟨.value ha hx hvx, held, .literal ha hm hl, unquoted, read l⟩

end Session

end ScopedScript
