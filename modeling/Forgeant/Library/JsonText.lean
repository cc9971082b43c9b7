import Forgeant.Library.JsonNumber
import Forgeant.Library.Assoc

/-- What a JSON text denotes. Numbers are exact and members keep their order. -/
inductive JsonTree where
  | null
  | boolean (b : Bool)
  | number (q : ℚ)
  | string (s : Str)
  | array (elems : List JsonTree)
  | object (members : List (Str × JsonTree))

namespace JsonText

def isWs (b : UInt8) : Bool := b == 0x20 || b == 0x09 || b == 0x0a || b == 0x0d

def Ws (s : Str) : Prop := ∀ b ∈ s, isWs b = true

/-- The escapes of one letter. -/
def simpleEscape (c : UInt8) : Option UInt8 :=
  if c = 0x22 then some 0x22
  else if c = 0x5c then some 0x5c
  else if c = 0x2f then some 0x2f
  else if c = 0x62 then some 0x08
  else if c = 0x66 then some 0x0c
  else if c = 0x6e then some 0x0a
  else if c = 0x72 then some 0x0d
  else if c = 0x74 then some 0x09
  else none

def hexValue (c : UInt8) : Option Nat :=
  if 0x30 ≤ c ∧ c ≤ 0x39 then some (c.toNat - 0x30)
  else if 0x61 ≤ c ∧ c ≤ 0x66 then some (c.toNat - 0x57)
  else if 0x41 ≤ c ∧ c ≤ 0x46 then some (c.toNat - 0x37)
  else none

/-- The value of four hex digits. -/
def hex4 (a b c d : UInt8) : Option Nat :=
  match hexValue a, hexValue b, hexValue c, hexValue d with
  | some a, some b, some c, some d => some (((a * 16 + b) * 16 + c) * 16 + d)
  | _, _, _, _ => none

def isHighSurrogate (n : Nat) : Bool := 0xd800 ≤ n && n < 0xdc00

def isLowSurrogate (n : Nat) : Bool := 0xdc00 ≤ n && n < 0xe000

def utf8 (n : Nat) : Str := String.utf8EncodeChar (Char.ofNat n)

/-- One character of a string, as written and as the bytes it denotes. -/
inductive Character : Str → Str → Prop
  | plain {b : UInt8} (h : 0x20 ≤ b) (hq : b ≠ 0x22) (hb : b ≠ 0x5c) : Character [b] [b]
  | escape {c b : UInt8} (h : simpleEscape c = some b) : Character [0x5c, c] [b]
  | unicode {a b c d : UInt8} {n : Nat} (h : hex4 a b c d = some n)
      (hhigh : isHighSurrogate n = false) (hlow : isLowSurrogate n = false) :
      Character [0x5c, 0x75, a, b, c, d] (utf8 n)
  | surrogates {a b c d a' b' c' d' : UInt8} {n m : Nat} (h : hex4 a b c d = some n)
      (h' : hex4 a' b' c' d' = some m) (hhigh : isHighSurrogate n = true)
      (hlow : isLowSurrogate m = true) :
      Character [0x5c, 0x75, a, b, c, d, 0x5c, 0x75, a', b', c', d']
        (utf8 (0x10000 + (n - 0xd800) * 0x400 + (m - 0xdc00)))

inductive Characters : Str → Str → Prop
  | nil : Characters [] []
  | cons {s t x y : Str} (h : Character s x) (rest : Characters t y) :
      Characters (s ++ t) (x ++ y)

def quoted (s : Str) : Str := 0x22 :: (s ++ [0x22])

mutual

/-- A value without white space around it. -/
inductive Value : Str → JsonTree → Prop
  | null : Value (str "null") .null
  | boolean (b : Bool) : Value (if b then str "true" else str "false") (.boolean b)
  | number (n : JsonNumber) : Value n.text (.number n.value)
  | string {s t : Str} (h : Characters s t) : Value (quoted s) (.string t)
  | array {s : Str} {ts : List JsonTree} (h : Elements s ts) :
      Value (0x5b :: (s ++ [0x5d])) (.array ts)
  | object {s : Str} {ms : List (Str × JsonTree)} (h : Members s ms) :
      Value (0x7b :: (s ++ [0x7d])) (.object ms)

/-- What stands between the brackets of an array. -/
inductive Elements : Str → List JsonTree → Prop
  | nil {w : Str} (h : Ws w) : Elements w []
  | cons {w s w' r : Str} {t : JsonTree} {ts : List JsonTree} (hw : Ws w) (h : Value s t)
      (hw' : Ws w') (rest : MoreElements r ts) : Elements (w ++ (s ++ (w' ++ r))) (t :: ts)

inductive MoreElements : Str → List JsonTree → Prop
  | nil : MoreElements [] []
  | cons {w s w' r : Str} {t : JsonTree} {ts : List JsonTree} (hw : Ws w) (h : Value s t)
      (hw' : Ws w') (rest : MoreElements r ts) :
      MoreElements (0x2c :: (w ++ (s ++ (w' ++ r)))) (t :: ts)

/-- What stands between the braces of an object. -/
inductive Members : Str → List (Str × JsonTree) → Prop
  | nil {w : Str} (h : Ws w) : Members w []
  | cons {w k w₁ w₂ s w' r key : Str} {t : JsonTree} {ms : List (Str × JsonTree)} (hw : Ws w)
      (hk : Characters k key) (hw₁ : Ws w₁) (hw₂ : Ws w₂) (h : Value s t) (hw' : Ws w')
      (rest : MoreMembers r ms) :
      Members (w ++ (quoted k ++ (w₁ ++ 0x3a :: (w₂ ++ (s ++ (w' ++ r)))))) ((key, t) :: ms)

inductive MoreMembers : Str → List (Str × JsonTree) → Prop
  | nil : MoreMembers [] []
  | cons {w k w₁ w₂ s w' r key : Str} {t : JsonTree} {ms : List (Str × JsonTree)} (hw : Ws w)
      (hk : Characters k key) (hw₁ : Ws w₁) (hw₂ : Ws w₂) (h : Value s t) (hw' : Ws w')
      (rest : MoreMembers r ms) :
      MoreMembers (0x2c :: (w ++ (quoted k ++ (w₁ ++ 0x3a :: (w₂ ++ (s ++ (w' ++ r)))))))
        ((key, t) :: ms)

end

/-- The JSON texts, each with what it denotes. -/
def Denotes (text : Str) (t : JsonTree) : Prop :=
  ∃ w s w', Ws w ∧ Value s t ∧ Ws w' ∧ text = w ++ (s ++ w')

theorem Ws.nil : Ws [] := by simp [Ws]

theorem Value.denotes {s : Str} {t : JsonTree} (h : Value s t) : Denotes s t :=
  ⟨[], s, [], .nil, h, .nil, by simp⟩

end JsonText

namespace JsonTree

/-- A value that stands between brackets or braces. -/
def IsContainer : JsonTree → Prop
  | .array _ | .object _ => True
  | _ => False

/-- The members of every object come in strictly ascending order of keys. -/
def Ordered : JsonTree → Prop
  | .array elems => orderedElems elems
  | .object members => Assoc.Ordered members ∧ orderedMembers members
  | _ => True
where
  orderedElems : List JsonTree → Prop
    | [] => True
    | e :: es => e.Ordered ∧ orderedElems es
  orderedMembers : List (Str × JsonTree) → Prop
    | [] => True
    | (_, v) :: ms => v.Ordered ∧ orderedMembers ms

/-- Every string and every key in the tree satisfies `P`. -/
def StringsIn (P : Str → Prop) : JsonTree → Prop
  | .string s => P s
  | .array elems => elemsIn elems
  | .object members => membersIn members
  | _ => True
where
  elemsIn : List JsonTree → Prop
    | [] => True
    | e :: es => e.StringsIn P ∧ elemsIn es
  membersIn : List (Str × JsonTree) → Prop
    | [] => True
    | (k, v) :: ms => P k ∧ v.StringsIn P ∧ membersIn ms

mutual

def decideStringsIn (P : Str → Prop) [DecidablePred P] : (t : JsonTree) → Decidable (t.StringsIn P)
  | .string s => inferInstanceAs (Decidable (P s))
  | .array elems => decideElemsIn P elems
  | .object members => decideMembersIn P members
  | .null | .boolean _ | .number _ => .isTrue trivial

def decideElemsIn (P : Str → Prop) [DecidablePred P] :
    (elems : List JsonTree) → Decidable (StringsIn.elemsIn P elems)
  | [] => .isTrue trivial
  | e :: es =>
    let _ := decideStringsIn P e
    let _ := decideElemsIn P es
    inferInstanceAs (Decidable (_ ∧ _))

def decideMembersIn (P : Str → Prop) [DecidablePred P] :
    (members : List (Str × JsonTree)) → Decidable (StringsIn.membersIn P members)
  | [] => .isTrue trivial
  | (_, v) :: ms =>
    let _ := decideStringsIn P v
    let _ := decideMembersIn P ms
    inferInstanceAs (Decidable (_ ∧ _ ∧ _))

end

instance (P : Str → Prop) [DecidablePred P] : DecidablePred (StringsIn P) := decideStringsIn P

end JsonTree
