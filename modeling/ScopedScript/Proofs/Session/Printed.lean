import ScopedScript.Proofs.Expr.OfValue
import ScopedScript.Proofs.Parser.Printed
import ScopedScript.Proofs.Session.Place
import ScopedScript.Proofs.Store.Tidy

namespace ScopedScript

def Declaration.ofBinding (b : String × Value) : Declaration := (b.1, b.2.expr)

section

variable {settings : Settings} {invoke : Method → Machine → Outcome Unit} {a : Scope Value}

theorem Declaration.run_statement (d : Declaration) {value : Value} (m : Machine)
    (hvalue : ∀ view, d.2.value view = .ok value) (ha : m.store.scopes[m.current]? = some a)
    (free : a.conflict? d.1 = none) :
    ∃ n x, Statement.run settings invoke d.statement m = ⟨.ok (), n⟩ ∧ n.current = m.current ∧
      n.root = m.root ∧ n.store.scopes[n.current]? = some { a with vars := a.vars ++ [x] } ∧
      x.name = d.1 ∧ x.value = value := by
  have evaluated (view : View Value) : d.2.unplaced.value view = .ok value := by
    rw [Expr.unplaced, Expr.value_relocate, hvalue, Failure.mapError_ok]
  have same := Statement.noteStart_toSession settings (.declare d.name (some d.2.unplaced)) m
  rw [Declaration.statement, Statement.run]
  generalize Statement.noteStart settings _ m = n at same
  rw [← same] at ha ⊢
  have vacant : n.store.conflict? n.current d.1 = none := by
    rw [Store.conflict?, ha]
    exact free
  simp only [evaluated, Statement.runDeclare, Declaration.name, vacant]
  refine ⟨_, ⟨d.1, value, n.store.made.vars, n.store.origin n.current d.2.unplaced value⟩, rfl, rfl,
    rfl, ?_, rfl, rfl⟩
  simp [Store.addVariable, Array.getElem?_modify, ha]

variable (settings invoke) in
theorem run_declarations {bs : List (String × Value)} (m : Machine)
    (ha : m.store.scopes[m.current]? = some a) (methods : a.methods = [])
    (distinct : (a.vars.map Variable.name ++ bs.map Prod.fst).Nodup) :
    ∃ n b, Statement.runAll settings invoke
        (bs.map fun b => (Declaration.ofBinding b).statement) m = ⟨.ok (), n⟩ ∧
      n.current = m.current ∧ n.root = m.root ∧ n.store.scopes[n.current]? = some b ∧
      b.snapshot = a.snapshot ++ bs.map fun b => (b.1, b.2.reread) := by
  -- the names bound so far and those to come stay different, and there are still no methods
  induction bs generalizing m a with
  | nil => exact ⟨m, a, rfl, rfl, rfl, ha, (List.append_nil _).symm⟩
  | cons b bs ih =>
    have new : b.1 ∉ a.vars.map Variable.name := fun hin =>
      (List.nodup_append.1 distinct).2.2 _ hin _ List.mem_cons_self rfl
    have free : a.conflict? b.1 = none := by
      refine Scope.conflict?_eq_none.2 ⟨Scope.variableNamed?_eq_none.2 new, ?_⟩
      rw [Scope.methodNamed?, methods]
      rfl
    obtain ⟨n, x, run, current, root, scope, name, value⟩ :=
      (Declaration.ofBinding b).run_statement m b.2.value_expr ha free
    have distinct : ((a.vars ++ [x]).map Variable.name ++ bs.map Prod.fst).Nodup := by
      simpa [name, Declaration.ofBinding] using distinct
    obtain ⟨n', c, rest, current', root', scope', snapshot⟩ := ih n scope methods distinct
    refine ⟨n', c, ?_, current'.trans current, root'.trans root, scope', ?_⟩
    · rw [List.map_cons, Statement.runAll, run]
      exact rest
    · rw [snapshot]
      simp [Scope.snapshot, name, value, Declaration.ofBinding]

end

namespace Session

theorem within_of_parse {source : String} {program : Block}
    (h : Lexicon.standard.parse source = .ok program) : Block.Within .standard program := by
  unfold Lexicon.parse at h
  split at h
  · cases h
  · rename_i tokens stop scanned
    exact (Parser.parseWithin_reads h).1.within Vocabulary.standard_covers
      (Lexicon.makes_of_tokenize scanned)

theorem replay_tidy (sources : List (Settings × String)) :
    (replay sources).store.Every Scope.Tidy :=
  replay_upheld upheld_tidy within_of_parse (start_every (Scope.tidy_empty none 0)) sources

theorem handle_of_run_unplaced {s : Session} {settings : Settings} {source : String}
    {program : Block} {bindings : List (String × Value)}
    (parsed : Lexicon.standard.parse source = .ok program)
    (methods : ∀ scope ∈ s.store.scopes, scope.methods = [])
    (run : ∀ notes, ∃ n, Block.run settings program.unplaced ⟨s, notes⟩ = ⟨.ok (), n⟩ ∧
      n.bindings = bindings) :
    (s.handle settings source).1 = .ok ⟨bindings, none⟩ := by
  obtain ⟨notes, ended⟩ := run_of_parse parsed s settings
  obtain ⟨n, unplaced, bound⟩ := run notes
  rw [Block.unplaced, run_moved (relocate_of_no_methods methods)] at unplaced
  generalize Block.run settings program ⟨s, notes⟩ = o at ended unplaced
  obtain ⟨result, m⟩ := o
  obtain ⟨done, rfl⟩ := Outcome.mk.inj unplaced
  cases result with
  | error f => cases done
  | ok =>
    have bound : m.bindings = bindings := (bindings_relocate _ m.toSession).symm.trans bound
    rw [handle, ended]
    exact congrArg (fun bs => Except.ok (Answer.mk bs none)) bound

theorem handle_renderBindings {bs : List (String × Value)} (settings : Settings)
    (distinct : (bs.map Prod.fst).Nodup)
    (declared : ∀ b ∈ bs, Vocabulary.standard.declares b.1)
    (quotable : ∀ b ∈ bs, b.2.Quotable) (whole : ∀ b ∈ bs, b.2.isWhole) :
    (start.handle settings (renderBindings bs)).1 =
      .ok ⟨bs.map fun b => (b.1, b.2.reread), none⟩ := by
  have text : renderBindings bs =
      "\n".intercalate ((bs.map Declaration.ofBinding).map Declaration.text) := by
    rw [renderBindings, List.map_map]
    refine congrArg _ (List.map_congr_left fun b hb => ?_)
    exact congrArg (declarationText b.1) (Value.render_expr (whole b hb)).symm
  have printable : ∀ d ∈ bs.map Declaration.ofBinding, d.Printable := by
    intro d hd
    obtain ⟨b, hb, rfl⟩ := List.mem_map.1 hd
    have short := Value.length_written_expr b.2
    refine ⟨declared b hb, Value.printable_expr (quotable b hb) (whole b hb), ?_⟩
    exact Nat.lt_of_le_of_lt (Nat.mul_le_mul_left 2 short) (by decide)
  obtain ⟨program, parsed, block⟩ := parse_declarations printable
  rw [← text] at parsed
  rw [List.map_map] at block
  -- what was read is the declarations but for places, which runs that end well do not depend on
  refine handle_of_run_unplaced parsed start_no_methods fun notes => ?_
  obtain ⟨n, b, run, current, root, scope, snapshot⟩ :=
    run_declarations settings (Method.invoke settings Method.callDepth) ⟨start, notes⟩
      (a := ⟨none, 0, [], []⟩) rfl rfl distinct
  refine ⟨n, by rw [block]; exact run, ?_⟩
  have same : n.root = n.current := root.trans current.symm
  rw [bindings, Store.snapshot, same, scope]
  exact snapshot

theorem bindings_cases (s : Session) :
    s.bindings = [] ∨ ∃ a, s.store.scopes[s.root]? = some a ∧ s.bindings = a.snapshot := by
  rw [bindings, Store.snapshot]
  cases s.store.scopes[s.root]? with
  | none => exact .inl rfl
  | some a => exact .inr ⟨a, rfl, rfl⟩

theorem tidy_renderBindings {s : Session} (h : s.store.Every Scope.Tidy) (settings : Settings)
    (whole : ∀ b ∈ s.bindings, b.2.isWhole) :
    (start.handle settings (renderBindings s.bindings)).1 =
      .ok ⟨s.bindings.map fun b => (b.1, b.2.reread), none⟩ := by
  rcases s.bindings_cases with none | ⟨a, ha, bound⟩
  · rw [none] at whole ⊢
    exact handle_renderBindings settings .nil nofun nofun whole
  · have tidy := h s.root a ha
    rw [bound] at whole ⊢
    refine handle_renderBindings settings ?_ ?_ ?_ whole
    · simpa [Scope.snapshot, Function.comp_def] using tidy.distinct
    · intro b hb
      obtain ⟨x, hx, rfl⟩ := List.mem_map.1 hb
      exact tidy.declared x hx
    · intro b hb
      obtain ⟨x, hx, rfl⟩ := List.mem_map.1 hb
      exact tidy.quotable x hx

theorem replay_renderBindings (sources : List (Settings × String)) (settings : Settings)
    (whole : ∀ b ∈ (replay sources).bindings, b.2.isWhole) :
    (start.handle settings (renderBindings (replay sources).bindings)).1 =
      .ok ⟨(replay sources).bindings.map fun b => (b.1, b.2.reread), none⟩ :=
  tidy_renderBindings (replay_tidy sources) settings whole

/-- If a source runs well and the numbers it leaves are whole, then the text of its bindings is a
source that runs well too, and leaves bindings of the same names with equal values in the same
order. -/
theorem printed_bindings_recreated (settings settings' : Settings) (source : String)
    (bs : List (String × Value)) (succeeds : (start.handle settings source).1 = .ok ⟨bs, none⟩)
    (whole : ∀ b ∈ bs, b.2.isWhole) :
    ∃ cs, (start.handle settings' (renderBindings bs)).1 = .ok ⟨cs, none⟩ ∧
      List.Forall₂ (fun b c => c.1 = b.1 ∧ b.2.equals c.2) bs cs := by
  obtain rfl : bs = (replay [(settings, source)]).bindings := bindings_of_answer succeeds
  refine ⟨_, replay_renderBindings [(settings, source)] settings' whole, ?_⟩
  rw [List.forall₂_map_right_iff, List.forall₂_same]
  exact fun b hb => ⟨rfl, Value.equals_reread (whole b hb)⟩

theorem printed_bindings_recreated_signed :
    let source := "var zero = -0; var big = -12345678901234567890; var text = \"a\n; b\";" ++
      "var yes = big < zero; var none; var f() \x7b big = big * 1000; \x7d f();"
    let bs : List (String × Value) := [("zero", .number (-(Number.ofNat 0))),
      ("big", .number (-(Number.ofNat 12345678901234567890000))), ("text", .text "a\n; b"),
      ("yes", .bool true), ("none", .null)]
    (start.handle {} source).1 = .ok ⟨bs, none⟩ ∧ (∀ b ∈ bs, b.2.isWhole) ∧
      renderBindings bs = "var zero = 0;\nvar big = -12345678901234567741440;\n" ++
        "var text = \"a\n; b\";\nvar yes = true;\nvar none = null;" ∧
      ∃ cs, (start.handle {} (renderBindings bs)).1 = .ok ⟨cs, none⟩ ∧
        List.Forall₂ (fun b c => c.1 = b.1 ∧ b.2.equals c.2) bs cs := by
  intro source bs
  have answered : (start.handle {} source).1.toOption.bind
      (fun a => some (a.bindings, a.error)) = some (bs, none) := by
    decide +kernel
  obtain ⟨⟨bindings, error⟩, succeeds, same⟩ := exists_ok_of_bind answered
  obtain ⟨rfl, rfl⟩ := Prod.mk.inj (Option.some.inj same)
  have whole : ∀ b ∈ bs, b.2.isWhole := by decide +kernel
  exact ⟨succeeds, whole, by decide +kernel,
    printed_bindings_recreated {} {} source bs succeeds whole⟩

end Session

end ScopedScript
