import ScopedScript.Proofs.Plain.Grammar
import ScopedScript.Text.Digits

namespace ScopedScript.Plain.Json

/-- What a text of JSON can denote. A number with a fraction or an exponent is not a whole one, even
where its value is. -/
inductive Node
  | null
  | bool (b : Bool)
  | int (n : Int)
  | decimal (x : Rat)
  | text (s : String)
  | list (items : List Node)
  | map (members : List (String × Node))

def escapes : List (Char × Char) := [
  ('"', '"'), ('\\', '\\'), ('/', '/'), ('b', '\x08'), ('f', '\x0C'), ('n', '\n'), ('r', '\r'),
  ('t', '\t')]

def hexValue (cs : List Char) : Nat :=
  cs.foldl (fun n c => 16 * n + "0123456789abcdef".toList.idxOf c.toLower) 0

inductive CodeOf (n : Nat) : List Char → Prop
  | mk {a b c d : Char} : IsHexDigit a → IsHexDigit b → IsHexDigit c → IsHexDigit d →
    hexValue [a, b, c, d] = n → CodeOf n ['u', a, b, c, d]

/-- `char`. What lies beyond U+FFFF is escaped as the two surrogates that UTF-16 has for it. -/
inductive CharOf (c : Char) : List Char → Prop
  | unescaped : 0x20 ≤ c.toNat → c ≠ '"' → c ≠ '\\' → CharOf c [c]
  | escaped {d : Char} : (d, c) ∈ escapes → CharOf c ['\\', d]
  | code {cs : List Char} : CodeOf c.toNat cs → CharOf c ('\\' :: cs)
  | pair {high low : List Char} : 0x10000 ≤ c.toNat →
    CodeOf (0xD800 + (c.toNat - 0x10000) / 0x400) high →
    CodeOf (0xDC00 + (c.toNat - 0x10000) % 0x400) low → CharOf c ('\\' :: high ++ '\\' :: low)

inductive CharsOf : (s : List Char) → List Char → Prop
  | nil : CharsOf [] []
  | cons {c : Char} {s cs ds : List Char} : CharOf c cs → CharsOf s ds → CharsOf (c :: s) (cs ++ ds)

inductive StringOf (s : String) : List Char → Prop
  | mk {cs : List Char} : CharsOf s.toList cs → StringOf s ('"' :: cs ++ ['"'])

def intOf : List Char → Int
  | '-' :: cs => -Text.digitsValue cs
  | '+' :: cs => Text.digitsValue cs
  | cs => Text.digitsValue cs

def numberOf (cs : List Char) : Node :=
  let isExp (c : Char) : Bool := c == 'e' || c == 'E'
  let mantissa := cs.takeWhile (!isExp ·)
  let exp := cs.dropWhile (!isExp ·)
  let int := mantissa.takeWhile (· != '.')
  let frac := mantissa.dropWhile (· != '.')
  if frac.isEmpty && exp.isEmpty then .int (intOf int)
  else
    let places := frac.drop 1
    let power := intOf (exp.drop 1) - places.length
    .decimal (mkRat (intOf (int ++ places) * Nat.pow 10 power.toNat) (Nat.pow 10 (-power).toNat))

inductive Separated : (rules : List (List Char → Prop)) → List Char → Prop
  | none : Separated [] []
  | one {rule : List Char → Prop} {cs : List Char} : rule cs → Separated [rule] cs
  | more {rule next : List Char → Prop} {rules : List (List Char → Prop)}
    {cs comma rest : List Char} : rule cs → Sign ',' comma → Separated (next :: rules) rest →
    Separated (rule :: next :: rules) (cs ++ comma ++ rest)

inductive Enclosed (opening closing : Char) (rules : List (List Char → Prop)) : List Char → Prop
  | mk {l cs r : List Char} : Sign opening l → Separated rules cs → Sign closing r →
    Enclosed opening closing rules (l ++ cs ++ r)

inductive MemberOf (name : String) (content : List Char → Prop) : List Char → Prop
  | mk {cs colon ds : List Char} : StringOf name cs → Sign ':' colon → content ds →
    MemberOf name content (cs ++ colon ++ ds)

mutual

def ValueOf : Node → List Char → Prop
  | .null => (· = "null".toList)
  | .bool b => (· = (if b then "true" else "false").toList)
  | .int n => fun cs => IsNumber cs ∧ numberOf cs = .int n
  | .decimal x => fun cs => IsNumber cs ∧ numberOf cs = .decimal x
  | .text s => StringOf s
  | .list items => Enclosed '[' ']' (itemRules items)
  | .map members => Enclosed '\x7b' '\x7d' (memberRules members)

def itemRules : List Node → List (List Char → Prop)
  | [] => []
  | item :: items => ValueOf item :: itemRules items

def memberRules : List (String × Node) → List (List Char → Prop)
  | [] => []
  | (name, content) :: members => MemberOf name (ValueOf content) :: memberRules members

end

inductive TextOf (v : Node) : List Char → Prop
  | mk {before cs after : List Char} : IsBlank before → ValueOf v cs → IsBlank after →
    TextOf v (before ++ cs ++ after)

theorem CodeOf.isChar {n : Nat} {cs : List Char} (h : CodeOf n cs) : IsChar ('\\' :: cs) := by
  obtain ⟨ha, hb, hc, hd, _⟩ := h
  exact .code ha hb hc hd

theorem CharOf.isChars {c : Char} {cs ds : List Char} (h : CharOf c cs) (hd : IsChars ds) :
    IsChars (cs ++ ds) := by
  cases h with
  | unescaped visible quote backslash => exact .cons (.unescaped visible quote backslash) hd
  | escaped he =>
    have letters : ∀ e ∈ escapes, e.1 ∈ ['"', '\\', '/', 'b', 'f', 'n', 'r', 't'] := by decide
    exact .cons (.escaped (letters _ he)) hd
  | code code => exact .cons code.isChar hd
  | pair _ high low =>
    rw [List.append_assoc]
    exact .cons high.isChar (.cons low.isChar hd)

theorem CharsOf.isChars {s cs : List Char} (h : CharsOf s cs) : IsChars cs := by
  induction h with
  | nil => exact .nil
  | cons c _ ih => exact c.isChars ih

theorem StringOf.isString {s : String} {cs : List Char} (h : StringOf s cs) : IsString cs := by
  obtain ⟨chars⟩ := h
  exact .mk chars.isChars

theorem Separated.derives {rules : List (List Char → Prop)} {p : Phrase} {cs : List Char}
    (h : Separated rules cs) (hp : ∀ rule ∈ rules, ∀ ds, rule ds → Derives p ds) :
    Derives (.optional (.several p)) cs := by
  have several (some : rules ≠ []) : Derives (.several p) cs := by
    induction h with
    | none => exact absurd rfl some
    | one item => exact .one (hp _ (.head _) _ item)
    | more item comma _ ih =>
      obtain ⟨head, tail⟩ := List.forall_mem_cons.1 hp
      exact .more (head _ item) comma (ih tail nofun)
  cases h with
  | none => exact .none
  | one _ => exact .some (several nofun)
  | more _ _ _ => exact .some (several nofun)

mutual

theorem ValueOf.derives {cs : List Char} : ∀ {v : Node}, ValueOf v cs → Derives .value cs
  | .null, h => .word (h ▸ .tail _ (.head _))
  | .bool false, h => .word (h ▸ .head _)
  | .bool true, h => .word (h ▸ .tail _ (.tail _ (.head _)))
  | .int _, h => .number h.1
  | .decimal _, h => .number h.1
  | .text _, h => .string (StringOf.isString h)
  | .list items, h => by
    obtain ⟨l, inside, r⟩ : Enclosed _ _ _ cs := h
    exact .array l (inside.derives (derives_of_mem_itemRules items)) r
  | .map members, h => by
    obtain ⟨l, inside, r⟩ : Enclosed _ _ _ cs := h
    exact .object l (inside.derives (derives_of_mem_memberRules members)) r

theorem derives_of_mem_itemRules :
    ∀ (items : List Node), ∀ rule ∈ itemRules items, ∀ cs, rule cs → Derives .value cs
  | [] => nofun
  | _ :: items => List.forall_mem_cons.2
    ⟨fun _ h => ValueOf.derives h, derives_of_mem_itemRules items⟩

theorem derives_of_mem_memberRules :
    ∀ (members : List (String × Node)), ∀ rule ∈ memberRules members, ∀ cs, rule cs →
      Derives .member cs
  | [] => nofun
  | (_, content) :: members => by
    refine List.forall_mem_cons.2 ⟨fun cs h => ?_, derives_of_mem_memberRules members⟩
    obtain ⟨name, colon, value⟩ := h
    exact .member name.isString colon (ValueOf.derives value)

end

theorem TextOf.isText {v : Node} {cs : List Char} (h : TextOf v cs) : IsText cs := by
  obtain ⟨before, value, after⟩ := h
  exact .mk before value.derives after

end ScopedScript.Plain.Json
