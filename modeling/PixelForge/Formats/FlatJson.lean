import Mathlib.Data.List.Basic

/-! # Compact JSON for flat objects

Objects whose members are integers and strings, written without spaces. `write` escapes as RFC 8259
asks, with the short escapes where there are some; `read` is a parser for such texts (it takes every
escape but surrogate pairs, and a numeral with leading zeros). `read_write` is the round trip.
-/
set_option autoImplicit false

namespace PixelForge.FlatJson

inductive Scalar
  | int (n : Int)
  | str (s : String)
deriving DecidableEq, Repr

abbrev Members : Type := List (String × Scalar)

/-! ## The characters of a text -/

/-- The characters of a text. `String.toList` is slow to evaluate: it decodes what need not be decoded
where every byte is one of ASCII. -/
def characters (text : String) : List Char :=
  let bytes := text.toByteArray.data.toList
  if bytes.all (· < 128) then bytes.map fun b => Char.ofNat b.toNat else text.toList

theorem ascii_of_bytes {c : Char} (h : ∀ b ∈ String.utf8EncodeChar c, b < 128) :
    (String.utf8EncodeChar c).map (fun b => Char.ofNat b.toNat) = [c] := by
  by_cases hc : c.val.toNat ≤ 0x7f
  · have hsmall : c.val.toNat < 2 ^ 8 := by omega
    have hone : String.utf8EncodeChar c = [UInt8.ofNat c.val.toNat] := if_pos hc
    rw [hone, List.map_singleton, UInt8.toNat_ofNat', Nat.mod_eq_of_lt hsmall]
    exact congrArg (· :: []) (Char.ofNat_toNat c)
  · obtain ⟨b, bs, hbytes, hb⟩ : ∃ b bs, String.utf8EncodeChar c = b :: bs ∧ 128 ≤ b.toNat := by
      have hhigh : ∀ m, 0xc0 ≤ m → m < 2 ^ 8 → 128 ≤ (UInt8.ofNat m).toNat := by
        intro m hlow hbyte
        rw [UInt8.toNat_ofNat', Nat.mod_eq_of_lt hbyte]
        exact Nat.le_trans (by decide) hlow
      unfold String.utf8EncodeChar
      rw [if_neg hc]
      split
      · exact ⟨_, _, rfl, hhigh _ (by omega) (by omega)⟩
      · split
        · exact ⟨_, _, rfl, hhigh _ (by omega) (by omega)⟩
        · exact ⟨_, _, rfl, hhigh _ (by omega) (by omega)⟩
    have hlow := h b (hbytes ▸ List.mem_cons_self)
    exact absurd (UInt8.lt_iff_toNat_lt.mp hlow) (Nat.not_lt.mpr hb)

theorem ascii_of_utf8 {cs : List Char} (h : ∀ b ∈ cs.flatMap String.utf8EncodeChar, b < 128) :
    (cs.flatMap String.utf8EncodeChar).map (fun b => Char.ofNat b.toNat) = cs := by
  induction cs with
  | nil => rfl
  | cons c cs ih =>
    rw [List.flatMap_cons] at h
    rw [List.flatMap_cons, List.map_append, ascii_of_bytes fun b hb => h b (List.mem_append_left _ hb),
      ih fun b hb => h b (List.mem_append_right _ hb)]
    rfl

@[simp] theorem characters_eq (text : String) : characters text = text.toList := by
  obtain ⟨cs, rfl⟩ : ∃ cs, text = String.ofList cs := ⟨text.toList, String.ofList_toList.symm⟩
  unfold characters
  rw [String.toByteArray_ofList, List.utf8Encode, List.toList_data_toByteArray, String.toList_ofList]
  dsimp only
  split
  · rename_i hall
    exact ascii_of_utf8 fun b hb => of_decide_eq_true (List.all_eq_true.mp hall b hb)
  · rfl

/-! ## Writing -/

def hexDigit (n : Nat) : Char := if n < 10 then Char.ofNat (48 + n) else Char.ofNat (87 + n)

def shortEscapes : List (Char × Char) :=
  [('"', '"'), ('\\', '\\'), ('\n', 'n'), ('\r', 'r'), ('\t', 't'), ('\x08', 'b'), ('\x0c', 'f')]

def escapeChar (c : Char) : List Char :=
  match shortEscapes.lookup c with
  | some e => ['\\', e]
  | none =>
    if c.toNat < 32 then ['\\', 'u', '0', '0', hexDigit (c.toNat / 16), hexDigit (c.toNat % 16)]
    else [c]

/-- The characters of a string literal after the opening quote, then `rest`. -/
def writeStr : List Char → List Char → List Char
  | [], rest => '"' :: rest
  | c :: cs, rest => escapeChar c ++ writeStr cs rest

def writeInt (n : Int) (rest : List Char) : List Char :=
  if n < 0 then '-' :: (Nat.toDigits 10 n.natAbs ++ rest) else Nat.toDigits 10 n.natAbs ++ rest

def writeScalar : Scalar → List Char → List Char
  | .int n, rest => writeInt n rest
  | .str s, rest => '"' :: writeStr (characters s) rest

/-- The members after the opening brace. -/
def writeMembers : Members → List Char
  | [] => ['}']
  | [(k, v)] => '"' :: writeStr (characters k) (':' :: writeScalar v ['}'])
  | (k, v) :: kv :: kvs =>
    '"' :: writeStr (characters k) (':' :: writeScalar v (',' :: writeMembers (kv :: kvs)))

def write (kvs : Members) : String := String.ofList ('{' :: writeMembers kvs)

/-! ## Reading -/

def hexValue (c : Char) : Option Nat :=
  if c.isDigit then some (c.toNat - 48)
  else if 'a' ≤ c ∧ c ≤ 'f' then some (c.toNat - 87)
  else if 'A' ≤ c ∧ c ≤ 'F' then some (c.toNat - 55)
  else none

def readHex (cs : List Char) : Option Char :=
  match cs.mapM hexValue with
  | some ds =>
    let n := ds.foldl (fun n d => 16 * n + d) 0
    if n.isValidChar then some (Char.ofNat n) else none
  | none => none

/-- The character an escape stands for, by the character after the backslash. -/
def unescape (e : Char) : Option Char :=
  if e = '/' then some '/' else (shortEscapes.find? fun ce => ce.2 == e).map Prod.fst

/-- A string literal after its opening quote: its characters and what follows the closing quote. -/
def readStr : List Char → Option (List Char × List Char)
  | [] => none
  | c :: cs =>
    if c = '"' then some ([], cs)
    else if c = '\\' then
      match cs with
      | 'u' :: w :: x :: y :: z :: rest =>
        (readHex [w, x, y, z]).bind fun d => (readStr rest).map fun r => (d :: r.1, r.2)
      | e :: rest => (unescape e).bind fun d => (readStr rest).map fun r => (d :: r.1, r.2)
      | [] => none
    else if c.toNat < 32 then none
    else (readStr cs).map fun r => (c :: r.1, r.2)

def readNat (cs : List Char) : Option (Nat × List Char) :=
  match cs.takeWhile Char.isDigit with
  | [] => none
  | ds => some (Nat.ofDigitChars 10 ds 0, cs.dropWhile Char.isDigit)

def readScalar : List Char → Option (Scalar × List Char)
  | [] => none
  | c :: cs =>
    if c = '"' then (readStr cs).map fun r => (.str (String.ofList r.1), r.2)
    else if c = '-' then (readNat cs).map fun r => (.int (-r.1), r.2)
    else (readNat (c :: cs)).map fun r => (.int r.1, r.2)

/-- One member after the opening quote of its name. -/
def readMember (cs : List Char) : Option ((String × Scalar) × List Char) :=
  match readStr cs with
  | some (k, ':' :: rest) => (readScalar rest).map fun r => ((String.ofList k, r.1), r.2)
  | _ => none

/-- The members after the opening brace, at most as many as `fuel`. -/
def readMembers : Nat → List Char → Option Members
  | 0, _ => none
  | _ + 1, ['}'] => some []
  | fuel + 1, '"' :: cs =>
    match readMember cs with
    | some (kv, ['}']) => some [kv]
    | some (kv, ',' :: rest) => (readMembers fuel rest).map (kv :: ·)
    | _ => none
  | _ + 1, _ => none

def read (text : String) : Option Members :=
  match characters text with
  | '{' :: rest => readMembers rest.length rest
  | _ => none

/-! ## The round trip -/

theorem unescape_of_mem : ∀ ce ∈ shortEscapes, ce.2 ≠ 'u' ∧ unescape ce.2 = some ce.1 := by
  decide

theorem readHex_control :
    ∀ n < 32, readHex ['0', '0', hexDigit (n / 16), hexDigit (n % 16)] = some (Char.ofNat n) := by
  decide

theorem plain_of_lookup {c : Char} (h : shortEscapes.lookup c = none) : c ≠ '"' ∧ c ≠ '\\' := by
  constructor <;>
  · rintro rfl
    revert h
    decide

theorem mem_of_lookup {c e : Char} (h : shortEscapes.lookup c = some e) : (c, e) ∈ shortEscapes := by
  obtain ⟨l₁, l₂, hl, -⟩ := List.lookup_eq_some_iff.mp h
  rw [hl]
  simp

theorem readStr_quote (cs : List Char) : readStr ('"' :: cs) = some ([], cs) := by
  rw [readStr.eq_def]
  rfl

theorem readStr_plain {c : Char} (cs : List Char) (hq : c ≠ '"') (hb : c ≠ '\\')
    (hc : ¬ c.toNat < 32) : readStr (c :: cs) = (readStr cs).map fun r => (c :: r.1, r.2) := by
  rw [readStr.eq_def]
  simp only [if_neg hq, if_neg hb, if_neg hc]

theorem readStr_escape {e d : Char} (rest : List Char) (hu : e ≠ 'u') (he : unescape e = some d) :
    readStr ('\\' :: e :: rest) = (readStr rest).map fun r => (d :: r.1, r.2) := by
  simp [readStr, hu, he]

theorem readStr_escapeChar (c : Char) (rest : List Char) :
    readStr (escapeChar c ++ rest) = (readStr rest).map fun r => (c :: r.1, r.2) := by
  unfold escapeChar
  split
  · rename_i e he
    obtain ⟨hu, hd⟩ := unescape_of_mem (c, e) (mem_of_lookup he)
    exact readStr_escape rest hu hd
  · rename_i hnone
    split
    · rename_i hlt
      have hc : readHex ['0', '0', hexDigit (c.toNat / 16), hexDigit (c.toNat % 16)] = some c := by
        rw [readHex_control _ hlt, Char.ofNat_toNat]
      simp [readStr, hc]
    · rename_i hge
      obtain ⟨hq, hb⟩ := plain_of_lookup hnone
      exact readStr_plain rest hq hb hge

theorem readStr_writeStr (cs rest : List Char) : readStr (writeStr cs rest) = some (cs, rest) := by
  induction cs with
  | nil => exact readStr_quote rest
  | cons c cs ih => rw [writeStr, readStr_escapeChar, ih, Option.map_some]

/-- A numeral ends where a character follows that is no digit. -/
def Stops (rest : List Char) : Prop := ∀ c ∈ rest.head?, c.isDigit = false

theorem readNat_toDigits (n : Nat) {rest : List Char} (hrest : Stops rest) :
    readNat (Nat.toDigits 10 n ++ rest) = some (n, rest) := by
  have hdigit : ∀ c ∈ Nat.toDigits 10 n, c.isDigit = true := fun c hc =>
    Nat.isDigit_of_mem_toDigits (by decide) (by decide) hc
  have htake : (Nat.toDigits 10 n ++ rest).takeWhile Char.isDigit = Nat.toDigits 10 n := by
    rw [List.takeWhile_append_of_pos hdigit]
    cases rest with
    | nil => simp
    | cons c rest => simp [hrest c rfl]
  have hdrop : (Nat.toDigits 10 n ++ rest).dropWhile Char.isDigit = rest := by
    rw [List.dropWhile_append_of_pos hdigit]
    cases rest with
    | nil => rfl
    | cons c rest => simp [hrest c rfl]
  unfold readNat
  rw [htake, hdrop]
  split
  · rename_i hnil
    exact absurd hnil Nat.toDigits_ne_nil
  · rw [Nat.ofDigitChars_ten_toDigits]

theorem toDigits_cons (n : Nat) :
    ∃ c cs, Nat.toDigits 10 n = c :: cs ∧ c ≠ '"' ∧ c ≠ '-' := by
  obtain ⟨c, cs, hn⟩ := List.exists_cons_of_ne_nil (Nat.toDigits_ne_nil (n := n) (b := 10))
  have hc : c.isDigit = true :=
    Nat.isDigit_of_mem_toDigits (b := 10) (n := n) (by decide) (by decide) (by simp [hn])
  refine ⟨c, cs, hn, ?_, ?_⟩ <;>
  · rintro rfl
    revert hc
    decide

theorem readScalar_writeScalar (v : Scalar) {rest : List Char} (hrest : Stops rest) :
    readScalar (writeScalar v rest) = some (v, rest) := by
  cases v with
  | str s => simp [writeScalar, readScalar, readStr_writeStr, String.ofList_toList]
  | int n =>
    rw [writeScalar, writeInt]
    split
    · rename_i hneg
      have hn : -(n.natAbs : Int) = n := by omega
      have hread := readNat_toDigits n.natAbs hrest
      simp only [readScalar, hread, Option.map_some, hn, Char.reduceEq, if_false, if_true]
    · rename_i hpos
      have hn : (n.natAbs : Int) = n := by omega
      have hread := readNat_toDigits n.natAbs hrest
      obtain ⟨c, cs, hcs, hq, hm⟩ := toDigits_cons n.natAbs
      rw [hcs] at hread ⊢
      rw [List.cons_append] at hread ⊢
      simp only [readScalar, hq, hm, hread, Option.map_some, hn, if_false]

theorem readMember_write (k : String) (v : Scalar) {rest : List Char} (hrest : Stops rest) :
    readMember (writeStr k.toList (':' :: writeScalar v rest)) = some ((k, v), rest) := by
  simp [readMember, readStr_writeStr, readScalar_writeScalar v hrest, String.ofList_toList]

theorem length_writeStr (cs rest : List Char) : rest.length < (writeStr cs rest).length := by
  induction cs with
  | nil => simp [writeStr]
  | cons c cs ih =>
    rw [writeStr, List.length_append]
    omega

theorem length_writeScalar (v : Scalar) (rest : List Char) :
    rest.length < (writeScalar v rest).length := by
  cases v with
  | str s =>
    have h := length_writeStr s.toList rest
    rw [writeScalar, characters_eq, List.length_cons]
    omega
  | int n =>
    have h : 0 < (Nat.toDigits 10 n.natAbs).length := Nat.length_toDigits_pos
    rw [writeScalar, writeInt]
    split <;> simp only [List.length_cons, List.length_append] <;> omega

/-- Reading the members takes no more fuel than there are characters. -/
theorem readMembers_writeMembers (kvs : Members) {fuel : Nat}
    (hfuel : (writeMembers kvs).length ≤ fuel) : readMembers fuel (writeMembers kvs) = some kvs := by
  induction kvs generalizing fuel with
  | nil =>
    obtain ⟨fuel, rfl⟩ := Nat.exists_eq_add_of_le' hfuel
    rfl
  | cons kv kvs ih =>
    obtain ⟨k, v⟩ := kv
    cases kvs with
    | nil =>
      obtain ⟨fuel, rfl⟩ := Nat.exists_eq_add_of_le' (Nat.le_trans (Nat.succ_pos _) hfuel)
      have hstops : Stops ['}'] := by
        intro c hc
        cases hc
        decide
      have hm := readMember_write k v hstops
      simp [writeMembers, readMembers, hm]
    | cons kv' kvs' =>
      have hlen : (writeMembers (kv' :: kvs')).length <
          (writeStr k.toList (':' :: writeScalar v (',' :: writeMembers (kv' :: kvs')))).length := by
        have h₁ := length_writeStr k.toList (':' :: writeScalar v (',' :: writeMembers (kv' :: kvs')))
        have h₂ := length_writeScalar v (',' :: writeMembers (kv' :: kvs'))
        simp only [List.length_cons] at h₁ h₂
        omega
      rw [writeMembers, characters_eq, List.length_cons] at hfuel
      obtain ⟨fuel, rfl⟩ := Nat.exists_eq_add_of_le' (Nat.le_trans (Nat.succ_pos _) hfuel)
      have hstops : Stops (',' :: writeMembers (kv' :: kvs')) := by
        intro c hc
        cases hc
        decide
      have hm := readMember_write k v hstops
      simp [writeMembers, readMembers, hm]
      exact ih (by omega)

/-- **What is written reads back.** -/
theorem read_write (kvs : Members) : read (write kvs) = some kvs := by
  unfold read write
  rw [characters_eq, String.toList_ofList]
  exact readMembers_writeMembers kvs (Nat.le_refl _)

/-! ## The characters that are written

Of a member only the characters from U+0080 on are written as they are and are not ASCII: what admits
every ASCII character past the controls is a matter of these.
-/

/-- The characters of a scalar that the writer may write as they are. -/
def Scalar.chars : Scalar → List Char
  | .int _ => []
  | .str s => s.toList

section Characters

variable {P : Char → Prop} (hP : ∀ c : Char, 32 ≤ c.toNat → c.toNat < 128 → P c)

theorem shortEscapes_ascii : ∀ ce ∈ shortEscapes,
    ce.1.toNat < 128 ∧ 32 ≤ ce.2.toNat ∧ ce.2.toNat < 128 := by
  decide

theorem hexDigit_ascii : ∀ n < 16, 32 ≤ (hexDigit n).toNat ∧ (hexDigit n).toNat < 128 := by
  decide

include hP

theorem forall_escapeChar (c : Char) :
    (∀ d ∈ escapeChar c, P d) ↔ (128 ≤ c.toNat → P c) := by
  unfold escapeChar
  split
  · rename_i e he
    obtain ⟨hc, hlow, hhigh⟩ := shortEscapes_ascii (c, e) (mem_of_lookup he)
    constructor
    · intro _ hbeyond
      exact absurd hc (Nat.not_lt.mpr hbeyond)
    · intro _ d hd
      rcases List.mem_pair.mp hd with rfl | rfl
      · exact hP _ (by decide) (by decide)
      · exact hP _ hlow hhigh
  · split
    · rename_i hlt
      constructor
      · intro _ hbeyond
        omega
      · intro _ d hd
        have hhex : ∀ n < 16, P (hexDigit n) := fun n hn =>
          hP _ (hexDigit_ascii n hn).1 (hexDigit_ascii n hn).2
        simp only [List.mem_cons, List.not_mem_nil, or_false] at hd
        rcases hd with rfl | rfl | rfl | rfl | rfl | rfl
        · exact hP _ (by decide) (by decide)
        · exact hP _ (by decide) (by decide)
        · exact hP _ (by decide) (by decide)
        · exact hP _ (by decide) (by decide)
        · exact hhex _ (by omega)
        · exact hhex _ (by omega)
    · rename_i hge
      constructor
      · intro h _
        exact h c (List.mem_singleton_self c)
      · intro h d hd
        rw [List.mem_singleton.mp hd]
        rcases Nat.lt_or_ge c.toNat 128 with hlt | hbeyond
        · exact hP c (by omega) hlt
        · exact h hbeyond

theorem forall_writeStr (cs rest : List Char) :
    (∀ d ∈ writeStr cs rest, P d) ↔
      (∀ c ∈ cs, 128 ≤ c.toNat → P c) ∧ ∀ d ∈ rest, P d := by
  induction cs with
  | nil =>
    rw [writeStr, List.forall_mem_cons]
    have hquote : P '"' := hP _ (by decide) (by decide)
    simp [hquote]
  | cons c cs ih =>
    rw [writeStr, List.forall_mem_append, ih, forall_escapeChar hP, List.forall_mem_cons, and_assoc]

theorem forall_writeScalar (v : Scalar) (rest : List Char) :
    (∀ d ∈ writeScalar v rest, P d) ↔
      (∀ c ∈ v.chars, 128 ≤ c.toNat → P c) ∧ ∀ d ∈ rest, P d := by
  cases v with
  | str s =>
    rw [writeScalar, characters_eq, List.forall_mem_cons, forall_writeStr hP, Scalar.chars]
    exact and_iff_right (hP _ (by decide) (by decide))
  | int n =>
    have hdigits : ∀ d ∈ Nat.toDigits 10 n.natAbs, P d := by
      intro d hd
      have hdigit := Nat.isDigit_of_mem_toDigits (by decide) (by decide) hd
      simp only [Char.isDigit, Bool.and_eq_true, decide_eq_true_eq] at hdigit
      have hlow : 48 ≤ d.toNat := UInt32.le_iff_toNat_le.mp hdigit.1
      have hhigh : d.toNat ≤ 57 := UInt32.le_iff_toNat_le.mp hdigit.2
      exact hP d (by omega) (by omega)
    have hsign : P '-' := hP _ (by decide) (by decide)
    rw [writeScalar, writeInt]
    split
    · rw [List.forall_mem_cons, List.forall_mem_append]
      exact ⟨fun h => ⟨List.forall_mem_nil _, h.2.2⟩, fun h => ⟨hsign, hdigits, h.2⟩⟩
    · rw [List.forall_mem_append]
      exact ⟨fun h => ⟨List.forall_mem_nil _, h.2⟩, fun h => ⟨hdigits, h.2⟩⟩

theorem forall_writeMembers (kvs : Members) :
    (∀ d ∈ writeMembers kvs, P d) ↔
      ∀ kv ∈ kvs, ∀ c ∈ kv.1.toList ++ kv.2.chars, 128 ≤ c.toNat → P c := by
  have hquote : P '"' := hP _ (by decide) (by decide)
  have hcolon : P ':' := hP _ (by decide) (by decide)
  have hcomma : P ',' := hP _ (by decide) (by decide)
  have hbrace : P '\x7d' := hP _ (by decide) (by decide)
  induction kvs with
  | nil => simpa [writeMembers] using hbrace
  | cons kv kvs ih =>
    obtain ⟨k, v⟩ := kv
    cases kvs with
    | nil =>
      rw [writeMembers, characters_eq, List.forall_mem_cons, forall_writeStr hP, List.forall_mem_cons,
        forall_writeScalar hP, List.forall_mem_singleton, List.forall_mem_singleton,
        List.forall_mem_append]
      simp only [hquote, hcolon, hbrace, true_and, and_true]
    | cons kv' kvs' =>
      have hrest : (∀ d ∈ writeMembers (kv' :: kvs'), P d) ↔ _ := ih
      rw [List.forall_mem_cons (l := kv' :: kvs'), List.forall_mem_append, ← hrest, writeMembers,
        characters_eq, List.forall_mem_cons, forall_writeStr hP, List.forall_mem_cons,
        forall_writeScalar hP, List.forall_mem_cons]
      simp only [hquote, hcolon, hcomma, true_and, and_assoc]

/-- **The characters of a text** are all admitted when those of its members from U+0080 on are. -/
theorem forall_write (kvs : Members) :
    (∀ d ∈ (write kvs).toList, P d) ↔
      ∀ kv ∈ kvs, ∀ c ∈ kv.1.toList ++ kv.2.chars, 128 ≤ c.toNat → P c := by
  have hbrace : P '\x7b' := hP _ (by decide) (by decide)
  rw [write, String.toList_ofList, List.forall_mem_cons, forall_writeMembers hP]
  exact and_iff_right hbrace

end Characters

end PixelForge.FlatJson
