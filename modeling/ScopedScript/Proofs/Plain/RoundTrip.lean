import ScopedScript.Plain.Format
import ScopedScript.Proofs.Datum.Entries
import ScopedScript.Proofs.Number.Whole
import ScopedScript.Proofs.Plain.Json
import ScopedScript.Proofs.Plain.Reader
import ScopedScript.Store.Printer

namespace ScopedScript

open Plain.Json

namespace Plain.Json

theorem intOf_of_digits {cs : List Char} (h : ∀ c ∈ cs, c.isDigit) :
    intOf cs = Text.digitsValue cs := by
  have signs : ¬ '-'.isDigit ∧ ¬ '+'.isDigit := by decide
  rw [intOf]
  · rintro _ rfl
    exact signs.1 (h _ List.mem_cons_self)
  · rintro _ rfl
    exact signs.2 (h _ List.mem_cons_self)

theorem numberOf_whole {cs : List Char} (h : ∀ c ∈ cs, c ∉ ['e', 'E', '.']) :
    numberOf cs = .int (intOf cs) := by
  have others : ∀ c ∈ cs, c ≠ 'e' ∧ c ≠ 'E' ∧ c ≠ '.' := by simpa using h
  have letters : ∀ c ∈ cs, !(c == 'e' || c == 'E') := fun c hc => by simp [others c hc]
  have points : ∀ c ∈ cs, c != '.' := fun c hc => by simp [others c hc]
  have mantissa := List.takeWhile_eq_self_iff.2 letters
  have exp := List.dropWhile_eq_nil_iff.2 letters
  simp only [numberOf, mantissa, exp, List.takeWhile_eq_self_iff.2 points,
    List.dropWhile_eq_nil_iff.2 points, List.isEmpty_nil, Bool.and_self, if_true]

theorem numberOf_intText (n : Int) : numberOf (Number.intText n).toList = .int n := by
  have digits (n : Nat) : ∀ c ∈ Number.natDigits n, c.isDigit := (Number.areDigits_natDigits n).2
  have plain (n : Nat) : ∀ c ∈ Number.natDigits n, c ∉ ['e', 'E', '.'] := by
    have others : ['e', 'E', '.'].all (!·.isDigit) := by decide
    intro c hc hm
    have other := List.all_eq_true.1 others c hm
    rw [digits n c hc] at other
    cases other
  cases n with
  | ofNat n =>
    rw [Number.intText, String.toList_ofList, numberOf_whole (plain n), intOf_of_digits (digits n),
      Text.digitsValue_natDigits]
    rfl
  | negSucc n =>
    rw [Number.intText, String.toList_ofList,
      numberOf_whole (List.forall_mem_cons.2 ⟨by decide, plain (n + 1)⟩), intOf,
      Text.digitsValue_natDigits]
    rfl

end Plain.Json

namespace Plain

def Encodes (p : Plain) (v : Node) : Prop := ∀ pretty level, ValueOf v (encode pretty level p)

def EntryEncodes (e : String × Plain) (m : String × Node) : Prop := e.1 = m.1 ∧ e.2.Encodes m.2

section

variable {rules : List (List Char → Prop)} {texts : List (List Char)}
  (h : List.Forall₂ (fun rule cs => rule cs) rules texts)

include h

theorem separated_intercalate {comma : List Char} (hc : Sign ',' comma) :
    Separated rules (comma.intercalate texts) := by
  induction h with
  | nil => exact .none
  | cons first others ih =>
    cases others with
    | nil =>
      rw [List.intercalate_singleton]
      exact .one first
    | cons second others =>
      rw [List.intercalate_cons_cons]
      exact .more first hc ih

theorem enclosed_bracketed (pretty : Bool) (level : Nat) (opening closing : Char) :
    Enclosed opening closing rules (bracketed pretty level opening closing texts) := by
  obtain ⟨l, r, left, right, layout⟩ := bracketed_eq pretty level opening closing texts
  rw [layout]
  exact .mk left (separated_intercalate h (sign_separator pretty _)) right

end

theorem encodes_list {items : List Plain} {vs : List Node} (h : List.Forall₂ Encodes items vs) :
    (list items).Encodes (.list vs) := by
  intro pretty level
  have texts (level : Nat) : List.Forall₂ (fun rule cs => rule cs) (itemRules vs)
      (encodeItems pretty level items) := by
    induction h with
    | nil => exact .nil
    | cons first _ ih => exact .cons (first pretty level) ih
  exact enclosed_bracketed (texts (level + 1)) pretty level '[' ']'

section

variable {entries : List (String × Plain)} {members : List (String × Node)}
  (h : List.Forall₂ EntryEncodes entries members)

include h

theorem names_of_encodes : entries.map Prod.fst = members.map Prod.fst := by
  induction h with
  | nil => rfl
  | cons first _ ih => rw [List.map_cons, List.map_cons, first.1, ih]

theorem encodes_map : (map entries).Encodes (.map members) := by
  intro pretty level
  have texts (level : Nat) : List.Forall₂ (fun rule cs => rule cs) (memberRules members)
      (encodeEntries pretty level entries) := by
    induction h with
    | nil => exact .nil
    | @cons e m entries members first _ ih =>
      obtain ⟨name, content⟩ := e
      obtain ⟨_, v⟩ := m
      obtain ⟨rfl, encodes⟩ := first
      have colon : Sign ':' [':', ' '] := sign_cons (List.forall_mem_singleton.2 (.head _))
      have member := MemberOf.mk (stringOf_string name) colon (encodes pretty level)
      refine .cons ?_ ih
      simpa using member
  exact enclosed_bracketed (texts (level + 1)) pretty level '\x7b' '\x7d'

end

end Plain

namespace Datum

mutual

/-- What data of the kinds that JSON has are to be read back as. -/
inductive Counterpart : Datum → Node → Prop
  | null : Counterpart (.value .null) .null
  | bool {b : Bool} : Counterpart (.value (.bool b)) (.bool b)
  | text {s : String} : Counterpart (.text s) (.text s)
  | int {n : Int} : Counterpart (.int n) (.int n)
  | whole {x : Float} {n : Int} : Number.IsWhole x n → Counterpart (.value (.number x)) (.int n)
  | list {items : List Datum} {vs : List Node} : Counterparts items vs →
    Counterpart (.list items) (.list vs)
  | tuple {items : List Datum} {vs : List Node} : Counterparts items vs →
    Counterpart (.tuple items) (.list vs)
  | map {entries : List (Datum × Datum)} {members : List (String × Node)} :
    EntryCounterparts entries members → (members.map Prod.fst).Nodup →
    Counterpart (.map entries) (.map members)
  | cell {name : String} {content : Datum} {v : Node} : Counterpart content v →
    Counterpart (.cell name content) v
  | scope {ordinal : Nat} {cells : List (String × Datum)} {methods : List MethodHead}
    {members : List (String × Node)} : CellCounterparts cells members →
    Counterpart (.scope ordinal cells methods) (.map members)

inductive Counterparts : List Datum → List Node → Prop
  | nil : Counterparts [] []
  | cons {item : Datum} {v : Node} {items : List Datum} {vs : List Node} : Counterpart item v →
    Counterparts items vs → Counterparts (item :: items) (v :: vs)

inductive EntryCounterparts : List (Datum × Datum) → List (String × Node) → Prop
  | nil : EntryCounterparts [] []
  | cons {name : String} {content : Datum} {v : Node} {entries : List (Datum × Datum)}
    {members : List (String × Node)} : Counterpart content v → EntryCounterparts entries members →
    EntryCounterparts ((.text name, content) :: entries) ((name, v) :: members)

inductive CellCounterparts : List (String × Datum) → List (String × Node) → Prop
  | nil : CellCounterparts [] []
  | cons {name : String} {content : Datum} {v : Node} {cells : List (String × Datum)}
    {members : List (String × Node)} : Counterpart content v → CellCounterparts cells members →
    CellCounterparts ((name, content) :: cells) ((name, v) :: members)

end

open Plain

mutual

theorem Counterpart.encodes : ∀ {d : Datum} {v : Node}, d.Counterpart v → d.plain.Encodes v
  | _, _, .null => fun _ _ => rfl
  | .value (.bool true), _, .bool => fun _ _ => rfl
  | .value (.bool false), _, .bool => fun _ _ => rfl
  | _, _, .text => fun _ _ => stringOf_string _
  | _, _, .int => fun _ _ => ⟨Number.isNumber_intText _, numberOf_intText _⟩
  | _, _, .whole h => by
    rw [plain, ofValue, Number.whole?_of_isWhole h]
    exact fun _ _ => ⟨Number.isNumber_intText _, numberOf_intText _⟩
  | _, _, .list h => encodes_list h.encodes
  | _, _, .tuple h => encodes_list h.encodes
  | _, _, .map h distinct => by
    have written := h.encodes
    have names := names_of_encodes written
    rw [plain, collectEntries_eq_self (names ▸ distinct)]
    exact encodes_map written
  | _, _, .cell h => h.encodes
  | _, _, .scope h => encodes_map h.encodes

theorem Counterparts.encodes : ∀ {items : List Datum} {vs : List Node}, Counterparts items vs →
    List.Forall₂ Encodes (plainAll items) vs
  | _, _, .nil => .nil
  | _, _, .cons h hs => .cons h.encodes hs.encodes

theorem EntryCounterparts.encodes : ∀ {entries : List (Datum × Datum)}
    {members : List (String × Node)}, EntryCounterparts entries members →
    List.Forall₂ EntryEncodes (plainEntries entries) members
  | _, _, .nil => .nil
  | _, _, .cons h hs => .cons ⟨rfl, h.encodes⟩ hs.encodes

theorem CellCounterparts.encodes : ∀ {cells : List (String × Datum)}
    {members : List (String × Node)}, CellCounterparts cells members →
    List.Forall₂ EntryEncodes (plainCells cells) members
  | _, _, .nil => .nil
  | _, _, .cons h hs => .cons ⟨rfl, h.encodes⟩ hs.encodes

end

end Datum

theorem Store.counterpart_datum {s : Store Datum} {id : ScopeId} {a : Scope Datum}
    {members : List (String × Node)} (ha : s.scopes[id]? = some a)
    (h : Datum.CellCounterparts (s.snapshot id) members) :
    (s.datum id).Counterpart (.map members) := by
  rw [snapshot, ha] at h
  rw [datum, ha]
  exact .scope h

namespace Datum

/-- Serialized as JSON, on one line or on many, data denote their counterpart and nothing else. -/
theorem write_denotes {d : Datum} {v : Node} (h : d.Counterpart v) (pretty : Bool) :
    IsText (Format.json.write pretty d.plain).toList ∧
      ∀ w, TextOf w (Format.json.write pretty d.plain).toList ↔ w = v := by
  have written : TextOf v (Format.json.write pretty d.plain).toList := by
    have text := TextOf.mk isBlank_nil (h.encodes pretty 0) isBlank_nil
    rw [List.nil_append, List.append_nil] at text
    rwa [Format.write, Plain.toJson, String.toList_ofList]
  refine ⟨written.isText, fun w => ⟨fun denoted => denoted.unique written, ?_⟩⟩
  rintro rfl
  exact written

theorem write_denotes_nested :
    let store := (({} : Store Datum).push none).addVariable 0 "b" (.value (.number (-2))) (.write 0)
    let d : Datum := .map [(.text "a\"\\\n", .list [.value .null, .tuple [], .int (-5)]),
      (.text "v", .cell "v" (store.datum 0))]
    let v : Node := .map [("a\"\\\n", .list [.null, .list [], .int (-5)]),
      ("v", .map [("b", .int (-2))])]
    Format.json.write false d.plain =
        "\x7b\"a\\\"\\\\\\n\": [null, [], -5], \"v\": \x7b\"b\": -2\x7d\x7d" ∧
      ∀ pretty, IsText (Format.json.write pretty d.plain).toList ∧
        ∀ w, TextOf w (Format.json.write pretty d.plain).toList ↔ w = v := by
  intro store d v
  have whole : Number.IsWhole (-2) (-2) :=
    ⟨true, Nat.pow 2 52, -51, by decide +kernel, by decide +kernel, by decide⟩
  have scope : (store.datum 0).Counterpart (.map [("b", .int (-2))]) :=
    Store.counterpart_datum rfl (.cons (.whole whole) .nil)
  have items : Counterparts [.value .null, .tuple [], .int (-5)] [.null, .list [], .int (-5)] :=
    .cons .null (.cons (.tuple .nil) (.cons .int .nil))
  have counterpart : d.Counterpart v :=
    .map (.cons (.list items) (.cons (.cell scope) .nil)) (by decide)
  exact ⟨by decide +kernel, write_denotes counterpart⟩

end Datum

end ScopedScript
