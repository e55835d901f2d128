import ScopedScript.Proofs.Run.Logged
import ScopedScript.Proofs.Session.History

namespace ScopedScript

def Store.TemplatesVacant (s : Store Value) : Prop :=
  ∀ i a method, s.scopes[i]? = some a → method ∈ a.methods → s.Vacant i method.template

theorem Machine.Ready.templatesVacant {m : Machine} {active : List Nat} (h : m.Ready active) :
    m.store.TemplatesVacant :=
  fun i a method ha hm => (h.sound.template i a method ha hm).1

namespace Session

def executed (s : Session) : Step → List Execution
  | .run settings lexicon source =>
    match load settings lexicon source with
    | (.ok program, notes) => program.log settings ⟨s, notes⟩
    | (.error _, _) => []
  | .enter => []
  | .leave _ => []

def executions : Session × List ScopeId → List Step → List Execution
  | _, [] => []
  | p, x :: steps => p.1.executed x ++ executions (track p x) steps

structure Open (root : ScopeId) (p : Session × List ScopeId) : Prop where
  tracking : Tracking root p.1 p.2
  sound : p.1.store.Sound (p.2 ++ [root])

namespace Open

variable {root : ScopeId} {p : Session × List ScopeId}

theorem current_mem (h : Open root p) : p.1.current ∈ p.2 ++ [root] := by
  rw [← h.tracking.chain]
  exact List.mem_of_mem_head? (Store.chain_head? h.tracking.current_lt)

theorem ready (h : Open root p) (notes : Array String) :
    Machine.Ready (p.2 ++ [root]) ⟨p.1, notes⟩ :=
  ⟨h.current_mem, h.sound⟩

theorem start : Open 0 (Session.start, []) := by
  refine ⟨⟨rfl, by decide, rfl, ?_⟩, ⟨by decide, ?_, ?_⟩⟩
  · rw [Store.chain]
    rfl
  · intro i a p ha hp
    obtain ⟨hi, rfl⟩ := Array.getElem?_eq_some_iff.1 ha
    obtain rfl : i = 0 := Nat.lt_one_iff.1 hi
    cases hp
  · intro i a method ha hm
    obtain ⟨hi, rfl⟩ := Array.getElem?_eq_some_iff.1 ha
    obtain rfl : i = 0 := Nat.lt_one_iff.1 hi
    cases hm

end Open

structure Stepped (root : ScopeId) (p : Session × List ScopeId) (l : List Execution)
    (q : Session × List ScopeId) : Prop where
  ready (x : Execution) : x ∈ l → ∃ active, x.machine.Ready active
  vacant (outer id : Nat) : p.1.store.Vacant outer id → id ∉ p.2 ++ [root] →
    (∀ x ∈ l, x.machine.store.Vacant outer id) ∧
      q.1.store.Vacant outer id ∧ id ∉ q.2 ++ [root]
  ends (x : Execution) : x ∈ l → ∀ t, x.template? = some t →
    q.1.store.Vacant x.machine.current t ∧ t ∉ q.2 ++ [root]
  ordered : l.Pairwise fun x y =>
    ∀ t, x.template? = some t → y.machine.store.Vacant x.machine.current t

theorem Stepped.append {root : ScopeId} {p q r : Session × List ScopeId}
    {l l' : List Execution} (h : Stepped root p l q) (h' : Stepped root q l' r) :
    Stepped root p (l ++ l') r := by
  refine ⟨?_, ?_, ?_, List.pairwise_append.2 ⟨h.ordered, h'.ordered, ?_⟩⟩
  · intro x hx
    rcases List.mem_append.1 hx with hx | hx
    · exact h.ready x hx
    · exact h'.ready x hx
  · intro outer id hv hne
    obtain ⟨first, hv', hne'⟩ := h.vacant outer id hv hne
    obtain ⟨second, last⟩ := h'.vacant outer id hv' hne'
    refine ⟨fun x hx => ?_, last⟩
    rcases List.mem_append.1 hx with hx | hx
    · exact first x hx
    · exact second x hx
  · intro x hx t ht
    rcases List.mem_append.1 hx with hx | hx
    · obtain ⟨hv, hne⟩ := h.ends x hx t ht
      exact (h'.vacant _ _ hv hne).2
    · exact h'.ends x hx t ht
  · intro x hx y hy t ht
    obtain ⟨hv, hne⟩ := h.ends x hx t ht
    exact (h'.vacant _ _ hv hne).1 y hy

theorem Stepped.none {root : ScopeId} {p q : Session × List ScopeId}
    (h : ∀ outer id : Nat, p.1.store.Vacant outer id → id ∉ p.2 ++ [root] →
      q.1.store.Vacant outer id ∧ id ∉ q.2 ++ [root]) : Stepped root p [] q :=
  ⟨by simp, fun outer id hv hne => ⟨by simp, h outer id hv hne⟩, by simp, .nil⟩

namespace Open

variable {root : ScopeId} {s : Session} {stack : List ScopeId}

theorem enter (h : Open root (s, stack)) :
    Open root (s.enter, s.enter.current :: stack) ∧
      Stepped root (s, stack) [] (s.enter, s.enter.current :: stack) := by
  let m : Machine := ⟨s, #[]⟩
  refine ⟨⟨h.tracking.enter, m.enter_sound h.sound h.current_mem⟩, .none ?_⟩
  intro outer id hv hne
  have vacant := Machine.enter_vacant (m := m) hv fun e => hne (e ▸ h.current_mem)
  refine ⟨vacant, fun hin => ?_⟩
  rcases List.mem_cons.1 hin with rfl | hin
  · exact Nat.lt_irrefl _ hv.lt_size
  · exact hne hin

theorem leave (h : Open root (s, stack)) (location : Option Location) :
    Open root (Session.track (s, stack) (.leave location)) ∧
      Stepped root (s, stack) [] (Session.track (s, stack) (.leave location)) := by
  cases stack with
  | nil =>
    rw [Session.track, h.tracking.leave_nil]
    exact ⟨h, .none fun _ _ hv hne => ⟨hv, hne⟩⟩
  | cons inner stack =>
    obtain ⟨outer, left, -, tracking⟩ := h.tracking.leave_cons location
    rw [Session.track, left]
    have sub : stack ++ [root] ⊆ inner :: stack ++ [root] := List.subset_cons_self _ _
    exact ⟨⟨tracking, h.sound.mono sub⟩, .none fun _ _ hv hne => ⟨hv, fun hin => hne (sub hin)⟩⟩

theorem run (h : Open root (s, stack)) (settings : Settings) (lexicon : Lexicon)
    (source : String) :
    Open root ((s.run settings lexicon source).session, stack) ∧
      Stepped root (s, stack) (s.executed (.run settings lexicon source))
        ((s.run settings lexicon source).session, stack) := by
  have tracking := h.tracking.run settings lexicon source
  rcases s.run_cases settings lexicon source with ⟨f, notes, hl, hr⟩ | ⟨program, notes, hl, hr⟩
  · rw [executed, hl, hr]
    exact ⟨h, .none fun _ _ hv hne => ⟨hv, hne⟩⟩
  · have ready := h.ready notes
    have logged := Block.log_logged settings program ready
    have safe := runAll_safe settings Method.callDepth program ⟨s, notes⟩
    rw [hr] at tracking
    rw [executed, hl, hr]
    refine ⟨⟨tracking, safe.sound _ ready.current ready.sound⟩, ?_, ?_, ?_, logged.ordered⟩
    · intro x hx
      obtain ⟨active, -, hx⟩ := (logged.begins x hx).ready _ ready
      exact ⟨active, hx⟩
    · intro outer id hv hne
      have other : id ≠ s.current := fun e => hne (e ▸ h.current_mem)
      exact ⟨fun x hx => ((logged.begins x hx).vacant outer id hv other).1,
        safe.vacant outer id hv other, hne⟩
    · intro x hx t ht
      have begins := logged.begins x hx
      obtain ⟨active, -, hx'⟩ := begins.ready _ ready
      obtain ⟨rfl, hv⟩ := x.template_vacant hx' ht
      refine ⟨logged.ends x hx _ _ (Nat.le_refl _) hv, fun hin => ?_⟩
      exact absurd (ready.sound.active_lt _ hin) (Nat.not_lt.2 begins.size_le)

theorem track {p : Session × List ScopeId} (h : Open root p) (x : Step) :
    Open root (Session.track p x) ∧ Stepped root p (p.1.executed x) (Session.track p x) := by
  obtain ⟨s, stack⟩ := p
  cases x with
  | enter => exact h.enter
  | leave location => exact h.leave location
  | run settings lexicon source => exact h.run settings lexicon source

theorem history {p : Session × List ScopeId} (h : Open root p) (steps : List Step) :
    Open root (steps.foldl Session.track p) ∧
      Stepped root p (executions p steps) (steps.foldl Session.track p) := by
  induction steps generalizing p with
  | nil => exact ⟨h, .none fun _ _ hv hne => ⟨hv, hne⟩⟩
  | cons x steps ih =>
    obtain ⟨next, first⟩ := h.track x
    obtain ⟨last, rest⟩ := ih next
    exact ⟨last, first.append rest⟩

end Open

/-- A statement adds bindings to the scope it runs in only, behind those that are there; others at
most get new values. What loops and methods are modelled on never gets bindings, so that every body
starts in a new scope without any, inside the scope it was written in. -/
theorem no_binding_leaks (steps : List Step) :
    let log := executions (Session.start, []) steps
    let last := (steps.foldl track (Session.start, [])).1
    (∀ x ∈ log,
      x.machine.store.Frame (some x.machine.current) x.outcome.machine.store ∧
      x.machine.store.TemplatesVacant ∧ x.outcome.machine.store.TemplatesVacant ∧
      (∀ t, x.template? = some t → x.outcome.machine.store.Vacant x.machine.current t) ∧
      ∀ q ∈ x.starts, ∃ outer, x.home? = some outer ∧
        x.machine.store.scopes.size ≤ q.machine.current ∧ q.machine.Fresh outer) ∧
    log.Pairwise (fun x y =>
      ∀ t, x.template? = some t → y.machine.store.Vacant x.machine.current t) ∧
    last.store.TemplatesVacant ∧
    ∀ x ∈ log, ∀ t, x.template? = some t → last.store.Vacant x.machine.current t := by
  intro log last
  obtain ⟨opened, stepped⟩ := Open.start.history steps
  refine ⟨fun x hx => ?_, stepped.ordered, ?_, fun x hx t ht => (stepped.ends x hx t ht).1⟩
  · obtain ⟨active, ready⟩ := stepped.ready x hx
    have run := Reaches.of_run x.settings x.depth x.statement x.machine
    obtain ⟨active', -, ready'⟩ := run.ready active ready
    exact ⟨(run_steady x.settings x.depth x.statement x.machine).frame, ready.templatesVacant,
      ready'.templatesVacant, fun t ht => (x.template_vacant ready ht).2, x.starts_fresh ready⟩
  · exact (opened.ready #[]).templatesVacant

example :
    let steps := [Step.run {} .standard
        "var f() \x7b var a; \x7d var go = true; while go \x7b f(); go = false; \x7d",
      .enter, .run {} .standard "f();"]
    (executions (Session.start, []) steps).map
        (fun x => (x.machine.current, x.starts.map fun q => (x.home?, q.machine.current))) =
      [(0, []), (0, []), (0, [(some 0, 3)]), (3, [(some 0, 4)]), (4, []), (3, []),
        (5, [(some 0, 6)]), (6, [])] := by
  decide +kernel

end Session

end ScopedScript
