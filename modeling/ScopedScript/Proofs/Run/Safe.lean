import ScopedScript.Proofs.Run.Steady
import ScopedScript.Proofs.Store.Lookup

namespace ScopedScript

open Statement

structure Safe (m m' : Machine) : Prop where
  sound (active : List Nat) :
    m.current ∈ active → m.store.Sound active → m'.store.Sound active
  vacant (outer id : Nat) :
    m.store.Vacant outer id → id ≠ m.current → m'.store.Vacant outer id

theorem Safe.refl (m : Machine) : Safe m m := ⟨fun _ _ h => h, fun _ _ h _ => h⟩

theorem Safe.trans {m m' m'' : Machine} (hc : m'.current = m.current) (h : Safe m m')
    (h' : Safe m' m'') : Safe m m'' :=
  ⟨fun active ha hs => h'.sound active (hc ▸ ha) (h.sound active ha hs),
    fun outer id hv hne => h'.vacant outer id (h.vacant outer id hv hne) (hc ▸ hne)⟩

namespace Machine

variable {m : Machine} {active : List Nat} {outer id template : Nat}

theorem inside_sound (h : m.store.Sound active) (hv : m.store.Vacant outer template) :
    (m.inside template).store.Sound (m.store.scopes.size :: active) := by
  obtain ⟨a, ha, hp, -, hm⟩ := hv.empty
  have lt : outer < template := h.parent_lt template a outer ha hp
  rw [show (m.inside template).store = m.store.add a by simp [inside, Store.copy, ha]]
  refine h.add hp (Nat.lt_trans lt hv.lt_size) hm ?_
  rintro i b method hb hmem rfl
  exact (h.template i b method hb hmem).1.childless template a ha hp

theorem inside_vacant (hv : m.store.Vacant outer id) :
    (m.inside template).store.Vacant outer id := by
  simp only [inside, Store.copy]
  split
  · rename_i a ha
    exact hv.add (hv.childless template a ha)
  · exact hv

theorem enter_sound (h : m.store.Sound active) (hc : m.current ∈ active) :
    m.enter.store.Sound (m.store.scopes.size :: active) := by
  refine h.add rfl (h.active_lt _ hc) rfl ?_
  rintro i b method hb hmem e
  exact (h.template i b method hb hmem).2 (e ▸ hc)

theorem enter_vacant (hv : m.store.Vacant outer id) (hne : id ≠ m.current) :
    m.enter.store.Vacant outer id :=
  hv.add fun e => hne (Option.some.inj e).symm

theorem entered_vacant (h : m.store.Sound active) (hc : m.current ∈ active) :
    m.enter.store.Vacant m.current m.store.scopes.size :=
  Store.vacant_add h rfl (h.active_lt _ hc) rfl rfl

end Machine

theorem within_vacant {m : Machine} {template outer id : Nat} {body : Machine → Outcome Unit}
    (hb : ∀ m, Safe m (body m).machine) (hv : m.store.Vacant outer id) :
    (m.within template body).machine.store.Vacant outer id :=
  (hb _).vacant outer id (Machine.inside_vacant hv) (Nat.ne_of_lt hv.lt_size)

theorem within_sound {m : Machine} {template outer : Nat} {active : List Nat}
    {body : Machine → Outcome Unit} (hb : ∀ m, Safe m (body m).machine)
    (h : m.store.Sound active) (hv : m.store.Vacant outer template) :
    (m.within template body).machine.store.Sound active :=
  ((hb _).sound _ List.mem_cons_self (Machine.inside_sound h hv)).mono (List.subset_cons_self _ _)

@[simp] theorem Outcome.leave_store {α : Type} (o : Outcome α) (location : Location) :
    (o.leave location).machine.store = o.machine.store := by
  unfold Outcome.leave Session.leave
  split <;> rename_i h <;> split at h <;> cases h <;> rfl

theorem runMethod_safe (name : Name) (parameters : List String) (body : Block) (m : Machine) :
    Safe m (runMethod name parameters body m).machine := by
  constructor
  · intro active hc hs
    rw [runMethod, Outcome.leave_store]
    have entered := Machine.enter_sound hs hc
    have small := entered.mono (List.subset_cons_self _ _)
    unfold addMethod
    split
    · exact small
    · refine small.addMethod hc (Machine.entered_vacant hs hc) ?_
      exact fun hin => Nat.lt_irrefl _ (hs.active_lt _ hin)
  · intro outer id hv hne
    rw [runMethod, Outcome.leave_store]
    have entered := Machine.enter_vacant hv hne
    unfold addMethod
    split
    · exact entered
    · refine entered.of_frame (Store.frame_addMethod _ _ _) ?_ (by simp [Store.addMethod])
      exact fun e => hne (Option.some.inj e).symm

theorem iterate_vacant {template outer id : Nat} {body : Machine → Outcome Unit}
    (hb : ∀ m, Safe m (body m).machine) (again : Store Value → Except Failure Bool)
    (exceeded : Failure) (left : Nat) (m : Machine) (hv : m.store.Vacant outer id) :
    (iterate (·.within template body) again exceeded left m).machine.store.Vacant outer id := by
  refine iterate_rel (R := fun m m' => m.store.Vacant outer id → m'.store.Vacant outer id)
    (fun _ h => h) (fun h h' hv => h' (h hv)) again exceeded ?_ left m hv
  exact fun m hv => within_vacant hb hv

theorem iterate_sound {template outer : Nat} {active : List Nat} {body : Machine → Outcome Unit}
    (hb : ∀ m, Safe m (body m).machine) (again : Store Value → Except Failure Bool)
    (exceeded : Failure) (left : Nat) (m : Machine) (hs : m.store.Sound active)
    (hv : m.store.Vacant outer template) :
    (iterate (·.within template body) again exceeded left m).machine.store.Sound active := by
  let R (m m' : Machine) := m.store.Sound active ∧ m.store.Vacant outer template →
    m'.store.Sound active ∧ m'.store.Vacant outer template
  refine (iterate_rel (R := R) (fun _ h => h) (fun h h' hv => h' (h hv)) again exceeded ?_ left m
    ⟨hs, hv⟩).1
  exact fun m h => ⟨within_sound hb h.1 h.2, within_vacant hb h.2⟩

theorem runLoop_safe (settings : Settings) (location : Location) (condition : Expr)
    {body : Machine → Outcome Unit} (hb : ∀ m, Safe m (body m).machine) (m : Machine) :
    Safe m (runLoop settings location condition body m).machine := by
  have same := m.note_toSession settings ("while " ++ condition.render)
  rcases runLoop_cases settings location condition body m with ⟨f, -, h⟩ | ⟨cap, notes, -, h⟩
  · rw [h]
    exact ⟨fun _ _ h => same ▸ h, fun _ _ h _ => same ▸ h⟩
  · rw [h]
    generalize m.note settings ("while " ++ condition.render) = n at same
    constructor
    · intro active hc hs
      dsimp only
      rw [← same] at hc hs
      rw [Outcome.leave_store, rounds]
      have entered := Machine.enter_sound hs hc
      exact iterate_sound hb _ _ _ _ (entered.mono (List.subset_cons_self _ _))
        (Machine.entered_vacant hs hc)
    · intro outer id hv hne
      dsimp only
      rw [← same] at hv hne
      rw [Outcome.leave_store, rounds]
      exact iterate_vacant hb _ _ _ _ (Machine.enter_vacant hv hne)

theorem runDeclare_safe (name : Name) (value : Value) (origin : Origin) (m : Machine) :
    Safe m (runDeclare name value origin m).machine := by
  unfold runDeclare
  split
  · exact .refl m
  · refine ⟨fun active hc hs => hs.addVariable hc _ _ _, fun outer id hv hne => ?_⟩
    refine hv.of_frame (Store.frame_addVariable _ _ _ _ _) ?_ (by simp [Store.addVariable])
    exact fun e => hne (Option.some.inj e).symm

theorem runAssign_safe (name : Name) (e : Expr) (m : Machine) :
    Safe m (runAssign name e m).machine := by
  unfold runAssign
  split
  · exact .refl m
  · split
    · exact .refl m
    · refine ⟨fun active _ hs => hs.write _ _ _ _, fun outer id hv _ => ?_⟩
      exact hv.of_frame (g := none) (Store.frame_write _ _ _ _ _) (by simp) (by simp [Store.write])

theorem kept_safe (settings : Settings) :
    Kept settings fun m o => Steady (some m.current) m o ∧ Safe m o.machine where
  done m := ⟨.done (), .refl m⟩
  failed m _ hf _ := ⟨.failed hf, .refl m⟩
  trace _ _ _ h := ⟨(kept_steady settings).trace _ _ _ h.1, h.2.sound, h.2.vacant⟩
  seq _ _ _ h h' := ⟨h.1.seq h'.1, h.2.trans h.1.current h'.2⟩
  declare m name value origin :=
    ⟨runDeclare_steady name value origin m, runDeclare_safe name value origin m⟩
  assign m name e := ⟨runAssign_steady name e m, runAssign_safe name e m⟩
  method m name parameters body :=
    ⟨runMethod_steady name parameters body m, runMethod_safe name parameters body m⟩
  call m _ callee _ hc h := by
    refine ⟨(kept_steady settings).call m _ callee _ hc fun m => (h m).1, ?_, ?_⟩
    · intro active ha hs
      obtain ⟨owner, a, -, hsa, hmem⟩ := Store.mem_of_methodNamed? hc
      exact within_sound (fun m => (h m).2) hs (hs.template owner a callee hsa hmem).1
    · exact fun outer id hv _ => within_vacant (fun m => (h m).2) hv
  loop m location condition body h :=
    ⟨(kept_steady settings).loop m location condition body fun m => (h m).1,
      runLoop_safe settings location condition (fun m => (h m).2) m⟩

end ScopedScript
