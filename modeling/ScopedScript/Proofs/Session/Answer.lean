import ScopedScript.Proofs.Session.Bindings
import ScopedScript.Proofs.Session.Joined

namespace ScopedScript

open Statement

section

variable {α : Type} {settings : Settings}

theorem Outcome.leave_failsUnder {o : Outcome α} (h : FailsUnder settings o.result)
    (location : Location) : FailsUnder settings (o.leave location).result := by
  unfold Outcome.leave
  split
  · exact h
  · exact (failsUnder_error _).2 trivial

theorem addMethod_failsUnder (scope : ScopeId) (name : Name) (parameters : List String)
    (body : Block) (m : Machine) :
    FailsUnder settings (addMethod scope name parameters body m).result := by
  unfold addMethod
  split <;> simp

theorem runDeclare_failsUnder (name : Name) (value : Value) (origin : Origin) (m : Machine) :
    FailsUnder settings (runDeclare name value origin m).result := by
  unfold runDeclare
  split <;> simp

theorem runAssign_failsUnder (name : Name) (e : Expr) (m : Machine) :
    FailsUnder settings (runAssign name e m).result := by
  unfold runAssign
  split
  · simp
  · split
    · rename_i f hf
      exact (failsUnder_error f).2 (e.value_failsUnder settings _ f hf)
    · simp

theorem runLoop_failsUnder (location : Location) (condition : Expr)
    {body : Machine → Outcome Unit} (hb : ∀ m, FailsUnder settings (body m).result) (m : Machine) :
    FailsUnder settings (runLoop settings location condition body m).result := by
  rcases runLoop_cases settings location condition body m with ⟨f, hf, h⟩ | ⟨cap, notes, -, h⟩
  · rw [h]
    exact (failsUnder_error _).2 (Settings.cap_arises hf)
  · rw [h]
    refine FailsUnder.map (Outcome.leave_failsUnder ?_ location) _
    have round (template : ScopeId) (k : Machine) :
        FailsUnder settings (k.within template body).result := hb _
    exact iterate_fails (round _) (fun _ => testCondition_failsUnder settings _ _ _ _)
      (Failure.arises_ofCause _ _ _) _ _

theorem kept_failsUnder (settings : Settings) :
    Kept settings fun _ o => FailsUnder settings o.result where
  done _ := failsUnder_ok ()
  failed _ f _ h := (failsUnder_error f).2 h
  trace _ _ _ h := h
  seq _ _ _ _ h := h
  declare m name value origin := runDeclare_failsUnder name value origin m
  assign m name e := runAssign_failsUnder name e m
  method m name parameters body :=
    Outcome.leave_failsUnder (addMethod_failsUnder m.current name parameters body m.enter) _
  call _ _ _ _ _ h := h _
  loop m location condition _ h := runLoop_failsUnder location condition h m

end

namespace Session

theorem run_failsUnder (s : Session) (settings : Settings) (lexicon : Lexicon) (source : String) :
    FailsUnder settings (s.run settings lexicon source).result := by
  rcases s.run_cases settings lexicon source with ⟨f, notes, hl, hr⟩ | ⟨program, notes, -, hr⟩
  · have failed : lexicon.parse source = .error f := by rw [← load_fst settings, hl]
    rw [hr]
    exact (failsUnder_error f).2 ((parse_ofReading failed).arises settings)
  · rw [hr]
    exact FailsUnder.map ((kept_failsUnder settings).runAll Method.callDepth program _) _

theorem Open.current_eq_root {root : ScopeId} {s : Session} (h : Open root (s, [])) :
    s.current = s.root := by
  have head := Store.chain_head? h.tracking.current_lt
  rw [h.tracking.chain] at head
  exact (Option.some.inj head).symm.trans h.tracking.root_eq.symm

theorem replay_open (earlier : List (Settings × String)) : Open 0 (replay earlier, []) := by
  refine replay_induction (P := fun s => Open 0 (s, [])) earlier Open.start fun s hs x _ => ?_
  have next := (hs.run x.1 .standard x.2).1
  have same : (s.handle x.1 x.2).2.1 = (s.run x.1 .standard x.2).session :=
    reset_of_current next.current_eq_root
  rw [same]
  exact next

/-- However a source that is handled ends, the outermost scope is the current one afterwards. A
source that is no program changes nothing and is answered by a report. A program is answered by the
bindings of the outermost scope and, where it fails, by a report with a place, or without one where
it is nested too deep; the only failures without an answer are a text repeated too often and a cap
on loops that is no integer. On the way a statement is read only where a token is left, and every
statement runs in a scope that is there. -/
theorem handle_answers (earlier : List (Settings × String)) (settings : Settings)
    (source : String) :
    let s := replay earlier
    let result := (s.run settings .standard source).result
    let answer := (s.handle settings source).1
    let t := (s.handle settings source).2.1
    t.current = t.root ∧ t.root = s.root ∧
      (∀ f, Lexicon.standard.parse source = .error f →
        t = s ∧ ∃ report, answer = .ok ⟨t.bindings, some report⟩) ∧
      ((∃ n, result = .ok n ∧ answer = .ok ⟨t.bindings, none⟩) ∨
        (∃ e l, result = .error (.error e) ∧ e.kind ∈ .grammar :: ErrorKind.ofRun ∧
          answer = .ok ⟨t.bindings, some (e.report source, some l)⟩) ∨
        (∃ n, result = .error (.fault (.tooDeep n)) ∧
          answer = .ok ⟨t.bindings, some (tooDeepReport n, none)⟩) ∨
        ∃ f, result = .error (.fault f) ∧ answer = .error f ∧
          ((f = .repetitionOverflow ∨ f = .lengthOverflow ∨ f = .outOfMemory) ∨
            ∃ setting, settings.loopCap = some setting ∧ Text.int? setting = none ∧
              f = .loopCap setting)) ∧
      (∀ stop depth q, let one := Parser.statement .standard stop depth
        Parser.program (one.orAtEnd q) = Parser.program one ∧
          ∀ opener, Parser.block stop (one.orAtEnd q) opener = Parser.block stop one opener) ∧
      ∀ x ∈ s.executed (.run settings .standard source),
        x.machine.current < x.machine.store.scopes.size ∧ x.machine.store.TemplatesVacant := by
  intro s result answer t
  have opened := replay_open earlier
  obtain ⟨hc, hr, -, fails⟩ := s.run_frame settings .standard source
  have arises := s.run_failsUnder settings .standard source
  have unchanged : s.reset = s := reset_of_current opened.current_eq_root
  have answered : answer = t.answer source result := rfl
  refine ⟨rfl, hr, fun f hf => ?_, ?_, fun stop depth q => ⟨Parser.program_orAtEnd _ q,
    fun opener => Parser.block_orAtEnd stop _ q opener⟩, fun x hx => ?_⟩
  · obtain ⟨notes, run⟩ := run_of_parse_error hf s settings
    have same : t = s := by
      rw [← unchanged]
      exact congrArg (fun r : SourceRun => r.session.reset) run
    have ended : result = .error f := congrArg SourceRun.result run
    refine ⟨same, ?_⟩
    rw [answered, ended]
    cases parse_ofReading hf with
    | error => exact ⟨_, rfl⟩
    | tooDeep => exact ⟨_, rfl⟩
  · rw [answered]
    rcases hres : result with (e | f) | n
    · obtain ⟨kind, placed⟩ := fails _ hres
      obtain ⟨l, hl⟩ := Option.isSome_iff_exists.1 placed
      exact .inr (.inl ⟨e, l, rfl, kind, by simp only [Session.answer, hl]⟩)
    · cases arises _ hres with
      | repetition h =>
        refine .inr (.inr (.inr ⟨f, rfl, ?_⟩))
        cases f <;> first | exact h.elim | simp [Session.answer]
      | cap hs hn => exact .inr (.inr (.inr ⟨_, rfl, rfl, .inr ⟨_, hs, hn, rfl⟩⟩))
      | depth n => exact .inr (.inr (.inl ⟨n, rfl, rfl⟩))
    · exact .inl ⟨n, rfl, rfl⟩
  · obtain ⟨active, ready⟩ := (opened.run settings .standard source).2.ready x hx
    exact ⟨ready.sound.active_lt _ ready.current, ready.templatesVacant⟩

end Session

end ScopedScript
