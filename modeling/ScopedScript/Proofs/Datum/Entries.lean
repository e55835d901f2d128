import ScopedScript.Datum.Equality

namespace ScopedScript

variable {κ α : Type} [BEq κ] [LawfulBEq κ] {entries : List (κ × α)}

theorem mem_putEntry {key : κ} {content : α} {e : κ × α}
    (h : e ∈ putEntry (· == ·) key content entries) : e = (key, content) ∨ e ∈ entries := by
  induction entries with
  | nil => exact .inl (List.mem_singleton.1 h)
  | cons entry entries ih =>
    obtain ⟨k, v⟩ := entry
    rw [putEntry] at h
    split at h
    · rename_i same
      obtain rfl : k = key := eq_of_beq same
      exact (List.mem_cons.1 h).imp_right (List.mem_cons_of_mem _)
    · rcases List.mem_cons.1 h with rfl | h
      · exact .inr List.mem_cons_self
      · exact (ih h).imp_right (List.mem_cons_of_mem _)

theorem putEntry_of_not_mem {key : κ} (content : α) (h : key ∉ entries.map Prod.fst) :
    putEntry (· == ·) key content entries = entries ++ [(key, content)] := by
  induction entries with
  | nil => rfl
  | cons entry entries ih =>
    obtain ⟨k, v⟩ := entry
    have different : key ≠ k := List.ne_of_not_mem_cons h
    rw [putEntry, if_neg fun same => different (eq_of_beq same).symm,
      ih (List.not_mem_of_not_mem_cons h), List.cons_append]

def overlay (entries later : List (κ × α)) : List (κ × α) :=
  later.foldl (fun done e => putEntry (· == ·) e.1 e.2 done) entries

theorem mem_overlay {later : List (κ × α)} {e : κ × α} (h : e ∈ overlay entries later) :
    e ∈ entries ∨ e ∈ later := by
  induction later generalizing entries with
  | nil => exact .inl h
  | cons entry later ih =>
    rcases ih h with h | h
    · rcases mem_putEntry h with rfl | h
      · exact .inr List.mem_cons_self
      · exact .inl h
    · exact .inr (List.mem_cons_of_mem _ h)

theorem mem_collectEntries {e : κ × α} (h : e ∈ collectEntries (· == ·) entries) :
    e ∈ entries := by
  have collected : e ∈ overlay [] entries := h
  exact (mem_overlay collected).resolve_left List.not_mem_nil

theorem overlay_of_nodup {later : List (κ × α)}
    (h : ((entries ++ later).map Prod.fst).Nodup) : overlay entries later = entries ++ later := by
  induction later generalizing entries with
  | nil => exact (List.append_nil _).symm
  | cons e later ih =>
    have new : e.1 ∉ entries.map Prod.fst := by
      rw [List.map_append, List.nodup_append] at h
      exact fun hin => h.2.2 _ hin _ List.mem_cons_self rfl
    rw [← List.singleton_append, ← List.append_assoc] at h ⊢
    rw [← ih h, overlay, List.singleton_append, List.foldl_cons, putEntry_of_not_mem e.2 new]
    rfl

theorem collectEntries_eq_self (h : (entries.map Prod.fst).Nodup) :
    collectEntries (· == ·) entries = entries := by
  have collected : overlay [] entries = [] ++ entries := overlay_of_nodup h
  exact collected

theorem overlay_cons {e : κ × α} {later : List (κ × α)} (h : e.1 ∉ later.map Prod.fst) :
    overlay (e :: entries) later = e :: overlay entries later := by
  induction later generalizing entries with
  | nil => rfl
  | cons l later ih =>
    have other : putEntry (· == ·) l.1 l.2 (e :: entries) =
        e :: putEntry (· == ·) l.1 l.2 entries :=
      if_neg fun same => List.ne_of_not_mem_cons h (eq_of_beq same)
    rw [overlay, List.foldl_cons, other]
    exact ih (List.not_mem_of_not_mem_cons h)

end ScopedScript
