import ScopedScript.Proofs.Run.Induction
import ScopedScript.Proofs.Store.Frame

namespace ScopedScript

open Statement

structure Steady {α : Type} (grown : Option ScopeId) (m : Machine) (o : Outcome α) : Prop where
  current : o.machine.current = m.current
  root : o.machine.root = m.root
  frame : Store.Frame grown m.store o.machine.store
  failure : FailsWith ErrorKind.ofRun o.result

namespace Steady

variable {α : Type} {m m' : Machine} {g : Option ScopeId}

theorem done (a : α) : Steady g m ⟨.ok a, m⟩ :=
  ⟨rfl, rfl, .refl _ _, failsWith_ok _⟩

theorem failed {f : Failure} (h : f.Among ErrorKind.ofRun) :
    Steady g m (⟨.error f, m⟩ : Outcome α) :=
  ⟨rfl, rfl, .refl _ _, (failsWith_error f).2 h⟩

theorem of_eq {o : Outcome α} (hm : m'.toSession = m.toSession) (h : Steady g m' o) :
    Steady g m o :=
  ⟨hm ▸ h.current, hm ▸ h.root, hm ▸ h.frame, h.failure⟩

theorem mono {o : Outcome α} (h : Steady none m o) (g : Option ScopeId) : Steady g m o :=
  ⟨h.current, h.root, h.frame.mono g, h.failure⟩

theorem seq {o : Outcome α} (h : Steady (some m.current) m (⟨.ok (), m'⟩ : Outcome Unit))
    (h' : Steady (some m'.current) m' o) : Steady (some m.current) m o := by
  have hc : m'.current = m.current := h.current
  refine ⟨h'.current.trans hc, h'.root.trans h.root, ?_, h'.failure⟩
  rw [hc] at h'
  exact h.frame.trans h'.frame

end Steady

@[simp] theorem Machine.enter_current (m : Machine) : m.enter.current = m.store.scopes.size := rfl

theorem Machine.enter_scope (m : Machine) :
    m.enter.store.scopes[m.enter.current]? =
      some ⟨some m.current, m.store.made.scopes, [], []⟩ := by
  rw [enter_current]
  exact (Store.getElem?_add _ _ _).trans (if_pos rfl)

theorem Machine.frame_enter (m : Machine) : Store.Frame none m.store m.enter.store :=
  Store.frame_add _ _

theorem within_steady {α : Type} (m : Machine) (template : ScopeId)
    {body : Machine → Outcome α} (h : ∀ m, Steady (some m.current) m (body m)) :
    Steady none m (m.within template body) := by
  -- the copy is new, and the body leaves all other scopes alone
  have inner := h (m.inside template)
  exact ⟨rfl, inner.root, (Store.frame_copy m.store template).of_fresh (Nat.le_refl _) inner.frame,
    inner.failure⟩

theorem Outcome.leave_eq {α : Type} {g : Option ScopeId} (m : Machine) {o : Outcome α}
    (location : Location) (hc : o.machine.current = m.enter.current)
    (hp : Store.Frame g m.enter.store o.machine.store) :
    o.leave location = { o with machine := { o.machine with current := m.current } } := by
  have parent : o.machine.store.scopes[o.machine.current]?.bind Scope.parent = some m.current := by
    rw [hc, hp.parent m.enter_scope]
  simp [Outcome.leave, Session.leave, parent]

theorem runMethod_eq (name : Name) (parameters : List String) (body : Block) (m : Machine) :
    runMethod name parameters body m =
      let o := addMethod m.current name parameters body m.enter
      { o with machine := { o.machine with current := m.current } } := by
  unfold runMethod addMethod
  split
  · exact Outcome.leave_eq m name.location rfl (.refl none _)
  · exact Outcome.leave_eq m name.location rfl (Store.frame_addMethod ..)

theorem runDeclare_steady (name : Name) (value : Value) (origin : Origin) (m : Machine) :
    Steady (some m.current) m (runDeclare name value origin m) := by
  unfold runDeclare
  split
  · rename_i cause h
    exact .failed (by simp [conflict?_kind h, ErrorKind.ofRun])
  · exact ⟨rfl, rfl, Store.frame_addVariable .., failsWith_ok _⟩

theorem runAssign_steady (name : Name) (e : Expr) (m : Machine) :
    Steady (some m.current) m (runAssign name e m) := by
  unfold runAssign
  split
  · exact .failed (by simp [Cause.kind, ErrorKind.ofRun])
  · split
    · rename_i f hf
      exact .failed ((e.value_failsWith _ f hf).mono (by decide))
    · exact ⟨rfl, rfl, Store.frame_write .., failsWith_ok _⟩

theorem runMethod_steady (name : Name) (parameters : List String) (body : Block) (m : Machine) :
    Steady (some m.current) m (runMethod name parameters body m) := by
  have entered := m.frame_enter.mono (some m.current)
  rw [runMethod_eq]
  unfold addMethod
  split
  · rename_i cause h
    exact ⟨rfl, rfl, entered, by simp [conflict?_kind h, ErrorKind.ofRun]⟩
  · exact ⟨rfl, rfl, entered.trans (Store.frame_addMethod ..), failsWith_ok _⟩

theorem iterate_steady {round : Machine → Outcome Unit}
    (again : Store Value → Except Failure Bool) (exceeded : Failure)
    (hr : ∀ m, Steady none m (round m)) (ha : ∀ s, FailsWith ErrorKind.ofRun (again s))
    (he : exceeded.Among ErrorKind.ofRun) (left : Nat) (m : Machine) :
    Steady none m (iterate round again exceeded left m) := by
  let R (m m' : Machine) := m'.current = m.current ∧ m'.root = m.root ∧ m.store.Frame none m'.store
  have kept : R m (iterate round again exceeded left m).machine := by
    refine iterate_rel (R := R) (fun m => ⟨rfl, rfl, .refl _ _⟩) ?_ again exceeded ?_ left m
    · rintro m m' m'' ⟨hc, hr, hf⟩ ⟨hc', hr', hf'⟩
      exact ⟨hc'.trans hc, hr'.trans hr, hf.trans hf'⟩
    · exact fun m => ⟨(hr m).current, (hr m).root, (hr m).frame⟩
  exact ⟨kept.1, kept.2.1, kept.2.2, iterate_fails (fun m => (hr m).failure) ha he left m⟩

theorem rounds_steady (cap : Int) (location : Location) (condition : Expr)
    {body : Machine → Outcome Unit} (hb : ∀ m, Steady (some m.current) m (body m)) (m : Machine) :
    Steady none m.enter (rounds cap location condition body m) :=
  iterate_steady _ _ (fun k => within_steady k m.enter.current hb)
    (fun _ => testCondition_failsWith _ _ _ _ rfl) (by simp [Cause.kind, ErrorKind.ofRun]) _ _

theorem runLoop_steady (settings : Settings) (location : Location) (condition : Expr)
    {body : Machine → Outcome Unit} (hb : ∀ m, Steady (some m.current) m (body m)) (m : Machine) :
    Steady none m (runLoop settings location condition body m) := by
  rcases runLoop_cases settings location condition body m with ⟨f, -, h⟩ | ⟨cap, notes, -, h⟩
  · rw [h]
    exact .of_eq (m.note_toSession _ _) (.failed (by simp))
  · rw [h]
    refine .of_eq (m.note_toSession settings ("while " ++ condition.render)) ?_
    have steady := rounds_steady cap location condition hb
      (m.note settings ("while " ++ condition.render))
    rw [Outcome.leave_eq _ location steady.current steady.frame]
    exact ⟨rfl, steady.root, (Machine.frame_enter _).trans steady.frame, steady.failure.map _⟩

theorem kept_steady (settings : Settings) :
    Kept settings fun m o => Steady (some m.current) m o where
  done _ := .done ()
  failed _ _ h _ := .failed h
  trace _ _ _ h := ⟨h.current, h.root, h.frame, h.failure⟩
  seq _ _ _ := .seq
  declare m name value origin := runDeclare_steady name value origin m
  assign m name e := runAssign_steady name e m
  method m name parameters body := runMethod_steady name parameters body m
  call m _ callee _ _ h := (within_steady m callee.template h).mono _
  loop m location condition _ h := (runLoop_steady settings location condition h m).mono _

/-- However a run ends, and whatever it runs into, it is back in the scope it began in. -/
theorem run_steady (settings : Settings) (depth : Nat) (s : Statement) (m : Machine) :
    Steady (some m.current) m (run settings (Method.invoke settings depth) s m) :=
  (kept_steady settings).run depth s m

theorem runAll_steady (settings : Settings) (depth : Nat) (b : Block) (m : Machine) :
    Steady (some m.current) m (runAll settings (Method.invoke settings depth) b m) :=
  (kept_steady settings).runAll depth b m

end ScopedScript
