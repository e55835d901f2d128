import Mathlib.Data.List.Forall2
import ScopedScript.Proofs.Plain.Meaning

namespace ScopedScript.Plain.Json

/-! ## The reader -/

def blanks : List Char := [' ', '\t', '\n', '\r']

def skip (cs : List Char) : List Char := cs.dropWhile blanks.contains

def readChar : List Char → Char × List Char
  | '\\' :: 'u' :: cs =>
    let unit := hexValue (cs.take 4)
    -- a surrogate is the first of two: the other one stands behind a backslash and a letter
    if 0xD800 ≤ unit ∧ unit < 0xE000 then
      let low := hexValue ((cs.drop 6).take 4)
      (.ofNat (0x10000 + 0x400 * (unit - 0xD800) + (low - 0xDC00)), cs.drop 10)
    else (.ofNat unit, cs.drop 4)
  | '\\' :: c :: cs => ((escapes.lookup c).getD c, cs)
  | c :: cs => (c, cs)
  | [] => (default, [])

def readChars : (fuel : Nat) → List Char → List Char × List Char
  | 0, cs => ([], cs)
  | fuel + 1, cs =>
    if cs.head? = some '"' then ([], cs.drop 1)
    else
      let (c, rest) := readChar cs
      (readChars fuel rest).map (c :: ·) id

def readString (cs : List Char) : String × List Char :=
  (readChars cs.length (cs.drop 1)).map String.ofList id

section

variable {α : Type}

def readItems (read : List Char → α × List Char) : (fuel : Nat) → List Char → List α × List Char
  | 0, cs => ([], cs)
  | fuel + 1, cs =>
    match cs with
    | ']' :: rest | '\x7d' :: rest => ([], skip rest)
    | ',' :: rest => readItems read fuel (skip rest)
    | cs =>
      let (item, rest) := read cs
      (readItems read fuel rest).map (item :: ·) id

def readMember (read : List Char → α × List Char) (cs : List Char) : (String × α) × List Char :=
  let (name, rest) := readString cs
  (read (skip ((skip rest).drop 1))).map (name, ·) id

end

def readValue : (fuel : Nat) → List Char → Node × List Char
  | 0, cs => (.null, cs)
  | fuel + 1, cs =>
    if cs.head?.any isNumeric then
      (numberOf (cs.takeWhile isNumeric), skip (cs.dropWhile isNumeric))
    else
      match cs with
      | '"' :: _ => (readString cs).map .text skip
      | '[' :: rest => (readItems (readValue fuel) fuel (skip rest)).map .list id
      | '\x7b' :: rest => (readItems (readMember (readValue fuel)) fuel (skip rest)).map .map id
      | 't' :: _ => (.bool true, skip (cs.drop 4))
      | 'f' :: _ => (.bool false, skip (cs.drop 5))
      | _ => (.null, skip (cs.drop 4))

/-! ## Blanks and signs -/

def idle : List Char := blanks ++ [',', ']', '\x7d']

theorem not_isNumeric_of_mem_idle {c : Char} (h : c ∈ idle) : ¬ isNumeric c := by
  have others : idle.all (!isNumeric ·) := by decide
  simpa using List.all_eq_true.1 others c h

theorem not_isNumeric_of_mem_blanks {c : Char} (h : c ∈ blanks) : ¬ isNumeric c :=
  not_isNumeric_of_mem_idle (List.mem_append_left _ h)

theorem skip_append {cs : List Char} (h : IsBlank cs) (rest : List Char) :
    skip (cs ++ rest) = skip rest :=
  List.dropWhile_append_of_pos fun c hc => List.contains_iff_mem.2 (h c hc)

theorem skip_cons {c : Char} (h : c ∉ blanks) (cs : List Char) : skip (c :: cs) = c :: cs :=
  List.dropWhile_cons_of_neg (mt List.contains_iff_mem.1 h)

theorem Sign.skip_append {c : Char} {cs : List Char} (h : Sign c cs) (hc : c ∉ blanks)
    (rest : List Char) :
    ∃ behind, skip (cs ++ rest) = c :: behind ∧ skip behind = skip rest := by
  obtain @⟨before, after, hb, ha⟩ := h
  refine ⟨after ++ rest, ?_, Json.skip_append ha rest⟩
  rw [List.append_assoc, Json.skip_append hb, List.cons_append, skip_cons hc]

def Stops (cs : List Char) : Prop := ∀ c ∈ cs.head?, ¬ isNumeric c

theorem stops_of_isBlank {cs : List Char} (h : IsBlank cs) : Stops cs :=
  fun c hc => not_isNumeric_of_mem_blanks (h c (List.mem_of_mem_head? hc))

theorem Sign.stops {c : Char} {cs : List Char} (h : Sign c cs) (hc : ¬ isNumeric c)
    (rest : List Char) : Stops (cs ++ rest) := by
  obtain @⟨before, after, hb, ha⟩ := h
  cases before with
  | nil =>
    intro d hd
    cases hd
    exact hc
  | cons b before =>
    intro d hd
    cases hd
    exact stops_of_isBlank hb b rfl

/-! ## Strings -/

theorem toNat_range (c : Char) :
    c.toNat < 0xD800 ∨ 0xDFFF < c.toNat ∧ c.toNat < 0x110000 := c.valid

theorem readChar_append {c : Char} {cs : List Char} (h : CharOf c cs) (rest : List Char) :
    readChar (cs ++ rest) = (c, rest) := by
  have range := toNat_range c
  cases h with
  | unescaped _ _ backslash =>
    rw [List.singleton_append, readChar]
    · exact fun _ h => absurd h backslash
    · exact fun _ _ h => absurd h backslash
  | @escaped d he =>
    have found : ∀ e ∈ escapes, e.1 ≠ 'u' ∧ (escapes.lookup e.1).getD e.1 = e.2 := by decide
    obtain ⟨other, character⟩ := found _ he
    rw [List.cons_append, List.singleton_append, readChar, character]
    exact other
  | code code =>
    obtain ⟨_, _, _, _, value⟩ := code
    have scalar : ¬ (0xD800 ≤ c.toNat ∧ c.toNat < 0xE000) := by omega
    simp only [List.cons_append, List.nil_append, readChar, List.take_succ_cons, List.take_zero,
      List.drop_succ_cons, List.drop_zero, value, if_neg scalar, Char.ofNat_toNat]
  | pair beyond high low =>
    obtain ⟨_, _, _, _, value⟩ := high
    obtain ⟨_, _, _, _, value'⟩ := low
    generalize hn : c.toNat - 0x10000 = n at value value'
    have surrogate : 0xD800 ≤ 0xD800 + n / 0x400 ∧ 0xD800 + n / 0x400 < 0xE000 := by omega
    have both : 0x10000 + 0x400 * (0xD800 + n / 0x400 - 0xD800) +
        (0xDC00 + n % 0x400 - 0xDC00) = c.toNat := by omega
    simp only [List.cons_append, List.nil_append, readChar, List.take_succ_cons, List.take_zero,
      List.drop_succ_cons, List.drop_zero, value, value', if_pos surrogate, both,
      Char.ofNat_toNat]

theorem CharOf.head {c : Char} {cs : List Char} (h : CharOf c cs) :
    ∃ d ds, cs = d :: ds ∧ d ≠ '"' := by
  cases h with
  | unescaped _ quote _ => exact ⟨c, [], rfl, quote⟩
  | escaped _ => exact ⟨_, _, rfl, by decide⟩
  | code _ => exact ⟨_, _, rfl, by decide⟩
  | pair _ _ _ => exact ⟨_, _, rfl, by decide⟩

theorem readChars_append {s cs : List Char} (h : CharsOf s cs) (rest : List Char) {fuel : Nat}
    (hf : cs.length < fuel) : readChars fuel (cs ++ '"' :: rest) = (s, rest) := by
  induction h generalizing fuel with
  | nil =>
    cases fuel with
    | zero => cases hf
    | succ fuel => rfl
  | @cons c s cs ds hc _ ih =>
    cases fuel with
    | zero => cases hf
    | succ fuel =>
      have read := readChar_append hc (ds ++ '"' :: rest)
      obtain ⟨d, cs, rfl, quote⟩ := hc.head
      have short : ds.length < fuel := by
        rw [List.length_append, List.length_cons] at hf
        omega
      have head : ((d :: cs) ++ (ds ++ '"' :: rest)).head? ≠ some '"' := by
        simpa using quote
      rw [List.append_assoc, readChars, if_neg head, read]
      simp only [ih short, Prod.map_apply, id_eq]

theorem readString_append {s : String} {cs : List Char} (h : StringOf s cs) (rest : List Char) :
    readString (cs ++ rest) = (s, rest) := by
  obtain @⟨inner, chars⟩ := h
  have long : inner.length < ('"' :: inner ++ ['"'] ++ rest).length := by
    simp only [List.length_append, List.length_cons]
    omega
  have read := readChars_append chars rest long
  have behind : ('"' :: inner ++ ['"'] ++ rest).drop 1 = inner ++ '"' :: rest := by simp
  rw [readString, behind, read, Prod.map_apply, String.ofList_toList, id_eq]

/-! ## Values -/

def Opens (cs : List Char) : Prop :=
  ∃ before c after, cs = before ++ c :: after ∧ IsBlank before ∧ c ∉ idle

theorem opens_cons {c : Char} (h : c ∉ idle) (cs : List Char) : Opens (c :: cs) :=
  ⟨[], c, cs, rfl, isBlank_nil, h⟩

theorem Opens.append {cs : List Char} (h : Opens cs) (rest : List Char) : Opens (cs ++ rest) := by
  obtain ⟨before, c, after, rfl, blank, sign⟩ := h
  exact ⟨before, c, after ++ rest, List.append_assoc .., blank, sign⟩

theorem Opens.length_pos {cs : List Char} (h : Opens cs) : 0 < cs.length := by
  obtain ⟨before, c, after, rfl, _, _⟩ := h
  rw [List.length_append, List.length_cons]
  omega

theorem Sign.length_pos {c : Char} {cs : List Char} (h : Sign c cs) : 0 < cs.length := by
  obtain ⟨_, _⟩ := h
  rw [List.length_append, List.length_cons]
  omega

theorem Sign.opens {c : Char} {cs : List Char} (h : Sign c cs) (hc : c ∉ idle) : Opens cs := by
  obtain ⟨blank, _⟩ := h
  exact ⟨_, c, _, rfl, blank, hc⟩

theorem Enclosed.opens {opening closing : Char} {rules : List (List Char → Prop)} {cs : List Char}
    (h : Enclosed opening closing rules cs) (ho : opening ∉ idle) : Opens cs := by
  obtain ⟨l, _, _⟩ := h
  rw [List.append_assoc]
  exact (l.opens ho).append _

theorem StringOf.opens {s : String} {cs : List Char} (h : StringOf s cs) : Opens cs := by
  obtain ⟨_⟩ := h
  exact opens_cons (by decide) _

theorem MemberOf.opens {name : String} {rule : List Char → Prop} {cs : List Char}
    (h : MemberOf name rule cs) : Opens cs := by
  obtain ⟨string, _, _⟩ := h
  rw [List.append_assoc]
  exact string.opens.append _

theorem IsNumber.opens {cs : List Char} (h : IsNumber cs) : Opens cs := by
  obtain ⟨some, all⟩ := h.numeric
  obtain ⟨c, cs, rfl⟩ := List.exists_cons_of_ne_nil some
  exact opens_cons (fun hc => not_isNumeric_of_mem_idle hc (all c List.mem_cons_self)) cs

theorem ValueOf.opens {v : Node} {cs : List Char} (h : ValueOf v cs) : Opens cs := by
  cases v with
  | null =>
    obtain rfl : cs = "null".toList := h
    exact opens_cons (by decide) _
  | bool b =>
    obtain rfl : cs = (if b then "true" else "false").toList := h
    cases b <;> exact opens_cons (by decide) _
  | int _ => exact h.1.opens
  | decimal _ => exact h.1.opens
  | text _ => exact StringOf.opens h
  | list _ => exact Enclosed.opens h (by decide)
  | map _ => exact Enclosed.opens h (by decide)

section

variable {α : Type} {read : List Char → α × List Char} {a : α} {as : List α} {cs r : List Char}

def Reads (read : List Char → α × List Char) (a : α) (cs : List Char) : Prop :=
  ∀ rest, Stops rest → read (skip (cs ++ rest)) = (a, skip rest)

/-- The reader takes the texts of a rule for `a`, if they are not too long. -/
def Takes (read : List Char → α × List Char) (bound : Nat) (a : α) (rule : List Char → Prop) :
    Prop :=
  ∀ cs, rule cs → Opens cs ∧ (cs.length ≤ bound → Reads read a cs)

theorem readItems_close {closing : Char} (h : Sign closing r)
    (hc : closing = ']' ∨ closing = '\x7d') (rest : List Char) (fuel : Nat) :
    readItems read (fuel + 1) (skip (r ++ rest)) = ([], skip rest) := by
  have shown : closing ∉ blanks := by rcases hc with rfl | rfl <;> decide
  obtain ⟨behind, skipped, same⟩ := h.skip_append shown rest
  rw [skipped, ← same]
  rcases hc with rfl | rfl
  · rfl
  · rfl

theorem readItems_comma {comma : List Char} (h : Sign ',' comma) (rest : List Char) (fuel : Nat) :
    readItems read (fuel + 1) (skip (comma ++ rest)) = readItems read fuel (skip rest) := by
  obtain ⟨behind, skipped, same⟩ := h.skip_append (by decide) rest
  rw [skipped, ← same]
  rfl

theorem readItems_item (h : Reads read a cs) (ho : Opens cs) {rest : List Char} (hs : Stops rest)
    (fuel : Nat) : readItems read (fuel + 1) (skip (cs ++ rest)) =
      (readItems read fuel (skip rest)).map (a :: ·) id := by
  have item := h rest hs
  obtain ⟨before, c, after, same, blank, sign⟩ := ho.append rest
  have shown : c ∉ blanks := fun hc => sign (List.mem_append_left _ hc)
  rw [same, Json.skip_append blank, skip_cons shown] at item ⊢
  rw [readItems]
  · simp only [item]
  · rintro _ ⟨⟩
    exact sign (by decide)
  · rintro _ ⟨⟩
    exact sign (by decide)
  · rintro _ ⟨⟩
    exact sign (by decide)

theorem Separated.readItems_append {rules : List (List Char → Prop)} (h : Separated rules cs)
    {bound : Nat} (hb : cs.length ≤ bound) (takes : List.Forall₂ (Takes read bound) as rules)
    {closing : Char} (hr : Sign closing r) (hc : closing = ']' ∨ closing = '\x7d')
    (rest : List Char) {fuel : Nat} (hf : cs.length < fuel) :
    readItems read fuel (skip (cs ++ (r ++ rest))) = (as, skip rest) := by
  have bracket : ¬ isNumeric closing := by rcases hc with rfl | rfl <;> decide
  -- an item and the sign behind it take a round each, and neither is empty
  induction h generalizing as fuel with
  | none =>
    obtain rfl := List.forall₂_nil_right_iff.1 takes
    obtain ⟨fuel, rfl⟩ := Nat.exists_eq_succ_of_ne_zero (Nat.ne_zero_of_lt hf)
    exact readItems_close hr hc rest fuel
  | one item =>
    obtain ⟨a, _, ha, hn, rfl⟩ := List.forall₂_cons_right_iff.1 takes
    obtain rfl := List.forall₂_nil_right_iff.1 hn
    obtain ⟨opens, reads⟩ := ha _ item
    have pos := opens.length_pos
    obtain ⟨fuel, rfl⟩ : ∃ k, fuel = k + 2 := ⟨fuel - 2, by omega⟩
    rw [readItems_item (reads hb) opens (hr.stops bracket rest),
      readItems_close hr hc rest fuel]
    rfl
  | @more _ _ _ cs comma ds item sign _ ih =>
    obtain ⟨a, as, ha, has, rfl⟩ := List.forall₂_cons_right_iff.1 takes
    obtain ⟨opens, reads⟩ := ha _ item
    have pos := opens.length_pos
    have pos' := sign.length_pos
    rw [List.length_append, List.length_append] at hb hf
    obtain ⟨fuel, rfl⟩ : ∃ k, fuel = k + 2 := ⟨fuel - 2, by omega⟩
    have others := ih (by omega) has (by omega : ds.length < fuel)
    have stops := sign.stops (by decide) (ds ++ (r ++ rest))
    rw [List.append_assoc, List.append_assoc, readItems_item (reads (by omega)) opens stops,
      readItems_comma sign, others]
    rfl

theorem Enclosed.readItems_append {opening closing : Char} {rules : List (List Char → Prop)}
    (h : Enclosed opening closing rules cs) (ho : opening ∉ blanks)
    (hc : closing = ']' ∨ closing = '\x7d') {fuel : Nat} (hf : cs.length ≤ fuel + 1)
    (takes : List.Forall₂ (Takes read fuel) as rules) (rest : List Char) :
    ∃ behind, skip (cs ++ rest) = opening :: behind ∧
      readItems read fuel (skip behind) = (as, skip rest) := by
  obtain @⟨l, inside, r, left, items, right⟩ := h
  have pos := left.length_pos
  have pos' := right.length_pos
  rw [List.length_append, List.length_append] at hf
  obtain ⟨behind, skipped, same⟩ := left.skip_append ho (inside ++ (r ++ rest))
  refine ⟨behind, by rw [List.append_assoc, List.append_assoc, skipped], ?_⟩
  have short : inside.length < fuel := by omega
  rw [same]
  exact items.readItems_append (Nat.le_of_lt short) takes right hc rest short

theorem MemberOf.reads {name : String} {rule : List Char → Prop} (h : MemberOf name rule cs)
    (hr : ∀ ds, rule ds → ds.length ≤ cs.length → Reads read a ds) :
    Reads (readMember read) (name, a) cs := by
  intro rest stops
  obtain @⟨string, colon, ds, hs, sign, content⟩ := h
  have value := hr ds content (by rw [List.length_append]; omega) rest stops
  obtain ⟨behind, skipped, same⟩ := sign.skip_append (by decide) (ds ++ rest)
  have quote : skip (string ++ (colon ++ (ds ++ rest))) = string ++ (colon ++ (ds ++ rest)) := by
    obtain ⟨_⟩ := hs
    exact skip_cons (by decide) _
  rw [List.append_assoc, List.append_assoc, quote, readMember, readString_append hs]
  simp only [skipped, List.drop_succ_cons, List.drop_zero, same, value, Prod.map_apply, id_eq]

end

theorem Stops.takeWhile {cs : List Char} (h : Stops cs) :
    cs.takeWhile isNumeric = [] ∧ cs.dropWhile isNumeric = cs := by
  cases cs with
  | nil => exact ⟨rfl, rfl⟩
  | cons c cs =>
    have stop := h c rfl
    exact ⟨List.takeWhile_cons_of_neg stop, List.dropWhile_cons_of_neg stop⟩

theorem IsNumber.reads {cs : List Char} (h : IsNumber cs) (fuel : Nat) :
    Reads (readValue (fuel + 1)) (numberOf cs) cs := by
  intro rest stops
  obtain ⟨some, all⟩ := h.numeric
  have taken : (cs ++ rest).takeWhile isNumeric = cs := by
    rw [List.takeWhile_append_of_pos all, stops.takeWhile.1, List.append_nil]
  have dropped : (cs ++ rest).dropWhile isNumeric = rest := by
    rw [List.dropWhile_append_of_pos all, stops.takeWhile.2]
  obtain ⟨c, cs, rfl⟩ := List.exists_cons_of_ne_nil some
  have number : isNumeric c := all c List.mem_cons_self
  have same : skip (c :: cs ++ rest) = c :: cs ++ rest :=
    skip_cons (fun hc => not_isNumeric_of_mem_blanks hc number) _
  have head : (c :: cs ++ rest).head?.any isNumeric := number
  rw [same]
  exact (if_pos head).trans (by rw [taken, dropped])

theorem StringOf.reads {s : String} {cs : List Char} (h : StringOf s cs) (fuel : Nat) :
    Reads (readValue (fuel + 1)) (.text s) cs := by
  intro rest _
  have string := readString_append h rest
  obtain ⟨_⟩ := h
  exact congrArg (Prod.map Node.text skip) string

mutual

theorem ValueOf.reads : ∀ {v : Node} {cs : List Char} {fuel : Nat}, ValueOf v cs →
    cs.length ≤ fuel → Reads (readValue fuel) v cs
  | _, _, 0, h, hf => absurd h.opens.length_pos (Nat.not_lt.2 hf)
  | .null, _, _ + 1, rfl, _ => fun _ _ => rfl
  | .bool false, _, _ + 1, rfl, _ => fun _ _ => rfl
  | .bool true, _, _ + 1, rfl, _ => fun _ _ => rfl
  | .int _, _, fuel + 1, h, _ => h.2 ▸ h.1.reads fuel
  | .decimal _, _, fuel + 1, h, _ => h.2 ▸ h.1.reads fuel
  | .text _, _, fuel + 1, h, _ => StringOf.reads h fuel
  | .list items, _, fuel + 1, h, hf => fun rest _ => by
    obtain ⟨behind, skipped, inside⟩ :=
      Enclosed.readItems_append h (by decide) (.inl rfl) hf (takes_itemRules items fuel) rest
    rw [skipped]
    exact congrArg (Prod.map Node.list id) inside
  | .map members, _, fuel + 1, h, hf => fun rest _ => by
    obtain ⟨behind, skipped, inside⟩ :=
      Enclosed.readItems_append h (by decide) (.inr rfl) hf (takes_memberRules members fuel) rest
    rw [skipped]
    exact congrArg (Prod.map Node.map id) inside

theorem takes_itemRules : ∀ (items : List Node) (fuel : Nat),
    List.Forall₂ (Takes (readValue fuel) fuel) items (itemRules items)
  | [], _ => .nil
  | _ :: items, fuel =>
    .cons (fun _ h => ⟨h.opens, ValueOf.reads h⟩) (takes_itemRules items fuel)

theorem takes_memberRules : ∀ (members : List (String × Node)) (fuel : Nat),
    List.Forall₂ (Takes (readMember (readValue fuel)) fuel) members (memberRules members)
  | [], _ => .nil
  | (_, _) :: members, fuel =>
    .cons (fun _ h => ⟨h.opens, fun hf => h.reads fun _ value short =>
      ValueOf.reads value (Nat.le_trans short hf)⟩) (takes_memberRules members fuel)

end

theorem TextOf.readValue_eq {v : Node} {cs : List Char} (h : TextOf v cs) :
    (readValue cs.length (skip cs)).1 = v := by
  obtain @⟨before, cs, after, hb, value, ha⟩ := h
  have short : cs.length ≤ (before ++ cs ++ after).length := by
    rw [List.length_append, List.length_append]
    omega
  rw [List.append_assoc, Json.skip_append hb, ← List.append_assoc,
    value.reads short after (stops_of_isBlank ha)]

theorem TextOf.unique {v w : Node} {cs : List Char} (hv : TextOf v cs) (hw : TextOf w cs) :
    v = w :=
  hv.readValue_eq.symm.trans hw.readValue_eq

end ScopedScript.Plain.Json
