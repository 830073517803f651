import Mathlib.Data.List.Basic
import Mathlib.Data.Nat.Notation
import Mathlib.Tactic.Common

namespace SpotGridBot.LibBase64

def char64s : List Char :=
  "ABCDEFGHIJKLMNOPQRSTUVWXYZabcdefghijklmnopqrstuvwxyz0123456789+/".toList

def getChar (bin : ℕ) : Char := char64s.getD bin '\x00'

def binaryConvert : List ℕ :=
  [62, 48, 49, 50, 63, 52, 53, 54, 55, 56, 57, 58, 59, 60, 61, 249, 250, 251, 252, 253, 254, 255, 0,
    1, 2, 3, 4, 5, 6, 7, 8, 9, 10, 11, 12, 13, 14, 15, 16, 17, 18, 19, 20, 21, 22, 23, 24, 25, 20,
    21, 22, 23, 24, 25, 26, 27, 28, 29, 30, 31, 32, 33, 34, 35, 36, 37, 38, 39, 40, 41, 42, 43, 44,
    45, 46, 47, 48, 49, 50, 51]

def toBinary (c : Char) : Option ℕ := if c.toNat < 43 then none else binaryConvert[c.toNat - 43]?

/-! ## Encoding -/

def sextet0 (b0 : UInt8) : ℕ := (b0.toNat &&& 0xFC) >>> 2
def sextet1 (b0 b1 : UInt8) : ℕ := ((b0.toNat &&& 0x03) <<< 4) + ((b1.toNat &&& 0xF0) >>> 4)
def sextet2 (b1 b2 : UInt8) : ℕ := ((b1.toNat &&& 0x0F) <<< 2) + ((b2.toNat &&& 0xC0) >>> 6)
def sextet3 (b2 : UInt8) : ℕ := b2.toNat &&& 0x3F

def encode : List UInt8 → List Char
  | [] => []
  | [b0] => [getChar (sextet0 b0), getChar (sextet1 b0 0), '=', '=']
  | [b0, b1] => [getChar (sextet0 b0), getChar (sextet1 b0 b1), getChar (sextet2 b1 0), '=']
  | b0 :: b1 :: b2 :: bytes =>
      getChar (sextet0 b0) :: getChar (sextet1 b0 b1) :: getChar (sextet2 b1 b2) ::
        getChar (sextet3 b2) :: encode bytes

/-! ## Decoding -/

def octet0 (first second : ℕ) : UInt8 := UInt8.ofNat ((first <<< 2) + ((second &&& 0x30) >>> 4))
def octet1 (second third : ℕ) : UInt8 :=
  UInt8.ofNat (((second &&& 0xf) <<< 4) + ((third &&& 0x3c) >>> 2))
def octet2 (third fourth : ℕ) : UInt8 := UInt8.ofNat (((third &&& 0x3) <<< 6) + fourth)

/-- The first character that is not in the alphabet starts the padding. The table of the alphabet
has no terminator: what lies `beyond` it is searched as well. -/
def wellPlaced (beyond encoded : List Char) : Bool :=
  match encoded.findIdx? fun c => c ∉ char64s ++ beyond with
  | none => true
  | some pos =>
      encoded[pos]? == some '=' &&
        (pos == encoded.length - 1 ||
          pos == encoded.length - 2 && encoded[pos + 1]? == some '=')

def check (beyond encoded : List Char) : Bool :=
  encoded.length % 4 == 0 && encoded.length != 0 && wellPlaced beyond encoded

def decodeGroup (c0 c1 c2 c3 : Char) : Option (List UInt8) := do
  let second ← toBinary c1
  let third ← toBinary c2
  let first ← toBinary c0
  let fourth ← toBinary c3
  some [octet0 first second, octet1 second third, octet2 third fourth]

def decodeLast (c0 c1 c2 c3 : Char) : Option (List UInt8) := do
  let second ← toBinary c1
  let first ← toBinary c0
  if c2 = '=' then some [octet0 first second]
  else
    let third ← toBinary c2
    if c3 = '=' then some [octet0 first second, octet1 second third]
    else
      let fourth ← toBinary c3
      some [octet0 first second, octet1 second third, octet2 third fourth]

def decodeGroups : List Char → Option (List UInt8)
  | [c0, c1, c2, c3] => decodeLast c0 c1 c2 c3
  | c0 :: c1 :: c2 :: c3 :: rest => do
      let group ← decodeGroup c0 c1 c2 c3
      let later ← decodeGroups rest
      some (group ++ later)
  | _ => some []

def decode (beyond encoded : List Char) : Option (List UInt8) :=
  if check beyond encoded then decodeGroups encoded else some []

example : encode [77, 97, 110, 121, 33] = "TWFueSE=".toList ∧
    decode [] "TWFueSE=".toList = some [77, 97, 110, 121, 33] := by
  decide +kernel

/-! ## Sextets and octets -/

section Bits
variable (b0 b1 b2 : UInt8)

theorem sextet0_eq : sextet0 b0 = b0.toNat / 4 := by
  have all : ∀ n < 256, (n &&& 0xFC) >>> 2 = n / 4 := by decide +kernel
  exact all _ b0.toNat_lt

theorem sextet1_eq : sextet1 b0 b1 = b0.toNat % 4 * 16 + b1.toNat / 16 := by
  have low : ∀ n < 256, (n &&& 0x03) <<< 4 = n % 4 * 16 := by decide +kernel
  have high : ∀ n < 256, (n &&& 0xF0) >>> 4 = n / 16 := by decide +kernel
  rw [sextet1, low _ b0.toNat_lt, high _ b1.toNat_lt]

theorem sextet2_eq : sextet2 b1 b2 = b1.toNat % 16 * 4 + b2.toNat / 64 := by
  have low : ∀ n < 256, (n &&& 0x0F) <<< 2 = n % 16 * 4 := by decide +kernel
  have high : ∀ n < 256, (n &&& 0xC0) >>> 6 = n / 64 := by decide +kernel
  rw [sextet2, low _ b1.toNat_lt, high _ b2.toNat_lt]

theorem sextet3_eq : sextet3 b2 = b2.toNat % 64 := by
  have all : ∀ n < 256, n &&& 0x3F = n % 64 := by decide +kernel
  exact all _ b2.toNat_lt

variable {first second third fourth : ℕ}

theorem octet0_toNat (small : first < 64) (small' : second < 64) :
    (octet0 first second).toNat = first * 4 + second / 16 := by
  have low : ∀ n < 64, (n &&& 0x30) >>> 4 = n / 16 := by decide +kernel
  rw [octet0, low _ small', Nat.shiftLeft_eq, UInt8.toNat_ofNat']
  omega

theorem octet1_toNat (small : second < 64) (small' : third < 64) :
    (octet1 second third).toNat = second % 16 * 16 + third / 4 := by
  have low : ∀ n < 64, (n &&& 0xf) <<< 4 = n % 16 * 16 := by decide +kernel
  have high : ∀ n < 64, (n &&& 0x3c) >>> 2 = n / 4 := by decide +kernel
  rw [octet1, low _ small, high _ small', UInt8.toNat_ofNat']
  omega

theorem octet2_toNat (small : third < 64) (small' : fourth < 64) :
    (octet2 third fourth).toNat = third % 4 * 64 + fourth := by
  have low : ∀ n < 64, (n &&& 0x3) <<< 6 = n % 4 * 64 := by decide +kernel
  rw [octet2, low _ small, UInt8.toNat_ofNat']
  omega

end Bits

/-! ## The alphabet -/

section Alphabet
variable {c : Char} {n : ℕ}

theorem toBinary_getChar (small : n < 64) : toBinary (getChar n) = some n := by
  have all : ∀ n < 64, toBinary (getChar n) = some n := by decide +kernel
  exact all n small

theorem getChar_mem (small : n < 64) : getChar n ∈ char64s := by
  have all : ∀ n < 64, getChar n ∈ char64s := by decide +kernel
  exact all n small

theorem exists_sextet (member : c ∈ char64s) : ∃ n < 64, toBinary c = some n ∧ getChar n = c := by
  obtain ⟨n, small, rfl⟩ := List.getElem_of_mem member
  have found : getChar n = char64s[n] := by
    rw [getChar, List.getD_eq_getElem?_getD, List.getElem?_eq_getElem small, Option.getD_some]
  refine ⟨n, small, ?_, found⟩
  rw [← found]
  exact toBinary_getChar small

theorem ne_pad (member : c ∈ char64s) : c ≠ '=' := by
  have absent : '=' ∉ char64s := by decide +kernel
  rintro rfl
  exact absent member

end Alphabet

/-! ## The texts that are decoded -/

inductive WellFormed : List Char → Prop where
  | full {c0 c1 c2 c3 : Char} (m0 : c0 ∈ char64s) (m1 : c1 ∈ char64s) (m2 : c2 ∈ char64s)
      (m3 : c3 ∈ char64s) : WellFormed [c0, c1, c2, c3]
  | pad {c0 c1 c2 : Char} (m0 : c0 ∈ char64s) (m1 : c1 ∈ char64s) (m2 : c2 ∈ char64s) :
      WellFormed [c0, c1, c2, '=']
  | pads {c0 c1 : Char} (m0 : c0 ∈ char64s) (m1 : c1 ∈ char64s) : WellFormed [c0, c1, '=', '=']
  | group {c0 c1 c2 c3 : Char} {rest : List Char} (m0 : c0 ∈ char64s) (m1 : c1 ∈ char64s)
      (m2 : c2 ∈ char64s) (m3 : c3 ∈ char64s) (later : WellFormed rest) :
      WellFormed (c0 :: c1 :: c2 :: c3 :: rest)

theorem WellFormed.length {text : List Char} (formed : WellFormed text) :
    text.length % 4 = 0 ∧ 4 ≤ text.length := by
  induction formed with
  | full => exact ⟨by simp, by simp⟩
  | pad => exact ⟨by simp, by simp⟩
  | pads => exact ⟨by simp, by simp⟩
  | group _ _ _ _ _ ih =>
      simp only [List.length_cons]
      omega

theorem wellPlaced_cons {beyond rest : List Char} {c : Char} (member : c ∈ char64s)
    (long : 2 ≤ rest.length) : wellPlaced beyond (c :: rest) = wellPlaced beyond rest := by
  have known : decide (c ∉ char64s ++ beyond) = false := by simp [member]
  unfold wellPlaced
  rw [List.findIdx?_cons, known]
  cases rest.findIdx? fun c => c ∉ char64s ++ beyond with
  | none => rfl
  | some pos =>
      have last : (pos + 1 == rest.length + 1 - 1) = (pos == rest.length - 1) := by
        rw [Bool.eq_iff_iff, beq_iff_eq, beq_iff_eq]
        omega
      have before : (pos + 1 == rest.length + 1 - 2) = (pos == rest.length - 2) := by
        rw [Bool.eq_iff_iff, beq_iff_eq, beq_iff_eq]
        omega
      simp only [Bool.false_eq_true, if_false, Option.map_some, List.length_cons,
        List.getElem?_cons_succ, last, before]

theorem wellPlaced_group {beyond rest : List Char} {c0 c1 c2 c3 : Char} (m0 : c0 ∈ char64s)
    (m1 : c1 ∈ char64s) (m2 : c2 ∈ char64s) (m3 : c3 ∈ char64s) (long : 2 ≤ rest.length) :
    wellPlaced beyond (c0 :: c1 :: c2 :: c3 :: rest) = wellPlaced beyond rest := by
  rw [wellPlaced_cons m0, wellPlaced_cons m1, wellPlaced_cons m2, wellPlaced_cons m3 long]
  all_goals
    simp only [List.length_cons]
    omega

theorem WellFormed.accepted {text : List Char} (formed : WellFormed text) (beyond : List Char) :
    check beyond text = true := by
  obtain ⟨whole, long⟩ := formed.length
  have placed : wellPlaced beyond text = true := by
    clear whole long
    have noPad : '=' ∉ char64s := fun member => ne_pad member rfl
    induction formed with
    | full m0 m1 m2 m3 =>
        simp [wellPlaced, List.findIdx?_cons, m0, m1, m2, m3]
    | pad m0 m1 m2 =>
        by_cases inside : '=' ∈ beyond
        · simp [wellPlaced, List.findIdx?_cons, m0, m1, m2, inside]
        · simp [wellPlaced, List.findIdx?_cons, m0, m1, m2, noPad, inside]
    | pads m0 m1 =>
        by_cases inside : '=' ∈ beyond
        · simp [wellPlaced, List.findIdx?_cons, m0, m1, inside]
        · simp [wellPlaced, List.findIdx?_cons, m0, m1, noPad, inside]
    | group m0 m1 m2 m3 later ih =>
        rw [wellPlaced_group m0 m1 m2 m3 (Nat.le_trans (by decide) later.length.2)]
        exact ih
  have some : text.length ≠ 0 := by omega
  simp [check, whole, some, placed]

theorem wellFormed_of_accepted {text : List Char} (accepted : check [] text = true) :
    WellFormed text := by
  simp only [check, Bool.and_eq_true, beq_iff_eq, bne_iff_ne] at accepted
  obtain ⟨⟨whole, some⟩, placed⟩ := accepted
  match text with
  | [] => exact absurd rfl some
  | [_] => cases whole
  | [_, _] => cases whole
  | [_, _, _] => cases whole
  | [c0, c1, c2, c3] =>
      by_cases m0 : c0 ∈ char64s
      · by_cases m1 : c1 ∈ char64s
        · by_cases m2 : c2 ∈ char64s
          · by_cases m3 : c3 ∈ char64s
            · exact .full m0 m1 m2 m3
            · simp [wellPlaced, List.findIdx?_cons, m0, m1, m2, m3] at placed
              subst placed
              exact .pad m0 m1 m2
          · simp [wellPlaced, List.findIdx?_cons, m0, m1, m2] at placed
            obtain ⟨rfl, rfl⟩ := placed
            exact .pads m0 m1
        · simp [wellPlaced, List.findIdx?_cons, m0, m1] at placed
      · simp [wellPlaced, List.findIdx?_cons, m0] at placed
  | c0 :: c1 :: c2 :: c3 :: c4 :: rest =>
      simp only [List.length_cons] at whole
      have long : 2 ≤ (c4 :: rest).length := by
        simp only [List.length_cons]
        omega
      by_cases m0 : c0 ∈ char64s
      · by_cases m1 : c1 ∈ char64s
        · by_cases m2 : c2 ∈ char64s
          · by_cases m3 : c3 ∈ char64s
            · rw [wellPlaced_group m0 m1 m2 m3 long] at placed
              have again : check [] (c4 :: rest) = true := by
                simp only [check, List.length_cons, placed]
                simp
                omega
              exact .group m0 m1 m2 m3 (wellFormed_of_accepted again)
            · simp [wellPlaced, List.findIdx?_cons, m0, m1, m2, m3] at placed
              obtain ⟨-, rfl, -⟩ := placed
              exact absurd whole (by decide)
          · simp [wellPlaced, List.findIdx?_cons, m0, m1, m2] at placed
        · simp [wellPlaced, List.findIdx?_cons, m0, m1] at placed
      · simp [wellPlaced, List.findIdx?_cons, m0] at placed

/-! ## Both ways -/

section Groups
variable (b0 b1 b2 : UInt8)

theorem sextets_lt : sextet0 b0 < 64 ∧ sextet1 b0 b1 < 64 ∧ sextet2 b1 b2 < 64 ∧ sextet3 b2 < 64 := by
  rw [sextet0_eq, sextet1_eq, sextet2_eq, sextet3_eq]
  have h0 := b0.toNat_lt
  have h1 := b1.toNat_lt
  have h2 := b2.toNat_lt
  omega

theorem octets_sextets : octet0 (sextet0 b0) (sextet1 b0 b1) = b0 ∧
    octet1 (sextet1 b0 b1) (sextet2 b1 b2) = b1 ∧ octet2 (sextet2 b1 b2) (sextet3 b2) = b2 := by
  obtain ⟨small0, small1, small2, small3⟩ := sextets_lt b0 b1 b2
  have h0 := b0.toNat_lt
  have h1 := b1.toNat_lt
  have h2 := b2.toNat_lt
  refine ⟨UInt8.toNat_inj.mp ?_, UInt8.toNat_inj.mp ?_, UInt8.toNat_inj.mp ?_⟩
  · rw [octet0_toNat small0 small1, sextet0_eq, sextet1_eq]
    omega
  · rw [octet1_toNat small1 small2, sextet1_eq, sextet2_eq]
    omega
  · rw [octet2_toNat small2 small3, sextet2_eq, sextet3_eq]
    omega

theorem getChar_ne_pad {n : ℕ} (small : n < 64) : getChar n ≠ '=' := ne_pad (getChar_mem small)

end Groups

theorem decodeGroups_full {c0 c1 c2 c3 : Char} {group rest : List UInt8} {text : List Char}
    (m2 : c2 ∈ char64s) (m3 : c3 ∈ char64s) (first : decodeGroup c0 c1 c2 c3 = some group)
    (later : text ≠ [] → decodeGroups text = some rest) (none : text = [] → rest = []) :
    decodeGroups (c0 :: c1 :: c2 :: c3 :: text) = some (group ++ rest) := by
  cases text with
  | nil =>
      rw [none rfl, List.append_nil, decodeGroups, ← first]
      simp only [decodeLast, decodeGroup, ne_pad m2, ne_pad m3, if_false]
      cases toBinary c0 <;> cases toBinary c1 <;> cases toBinary c2 <;> rfl
  | cons c text =>
      rw [decodeGroups, first, later (List.cons_ne_nil _ _)]
      · rfl
      · simp

theorem encode_wellFormed (bytes : List UInt8) (some : bytes ≠ []) : WellFormed (encode bytes) := by
  induction bytes using encode.induct with
  | case1 => exact absurd rfl some
  | case2 b0 =>
      obtain ⟨small0, small1, -, -⟩ := sextets_lt b0 0 0
      exact .pads (getChar_mem small0) (getChar_mem small1)
  | case3 b0 b1 =>
      obtain ⟨small0, small1, small2, -⟩ := sextets_lt b0 b1 0
      exact .pad (getChar_mem small0) (getChar_mem small1) (getChar_mem small2)
  | case4 b0 b1 b2 bytes ih =>
      obtain ⟨small0, small1, small2, small3⟩ := sextets_lt b0 b1 b2
      cases bytes with
      | nil =>
          exact .full (getChar_mem small0) (getChar_mem small1) (getChar_mem small2)
            (getChar_mem small3)
      | cons b bytes =>
          exact .group (getChar_mem small0) (getChar_mem small1) (getChar_mem small2)
            (getChar_mem small3) (ih (List.cons_ne_nil _ _))

theorem decodeGroups_encode (bytes : List UInt8) : decodeGroups (encode bytes) = some bytes := by
  induction bytes using encode.induct with
  | case1 => rfl
  | case2 b0 =>
      obtain ⟨small0, small1, -, -⟩ := sextets_lt b0 0 0
      obtain ⟨octet, -, -⟩ := octets_sextets b0 0 0
      simp [encode, decodeGroups, decodeLast, toBinary_getChar, small0, small1, octet]
  | case3 b0 b1 =>
      obtain ⟨small0, small1, small2, -⟩ := sextets_lt b0 b1 0
      obtain ⟨octet, octet', -⟩ := octets_sextets b0 b1 0
      simp [encode, decodeGroups, decodeLast, toBinary_getChar, small0, small1, small2, octet,
        octet', getChar_ne_pad]
  | case4 b0 b1 b2 bytes ih =>
      obtain ⟨small0, small1, small2, small3⟩ := sextets_lt b0 b1 b2
      obtain ⟨octet, octet', octet''⟩ := octets_sextets b0 b1 b2
      have group : decodeGroup (getChar (sextet0 b0)) (getChar (sextet1 b0 b1))
          (getChar (sextet2 b1 b2)) (getChar (sextet3 b2)) = some [b0, b1, b2] := by
        simp [decodeGroup, toBinary_getChar, small0, small1, small2, small3, octet, octet', octet'']
      refine decodeGroups_full (getChar_mem small2) (getChar_mem small3) group (fun _ => ih) ?_
      intro none
      cases bytes with
      | nil => rfl
      | cons b bytes =>
          have long := (encode_wellFormed (b :: bytes) (List.cons_ne_nil _ _)).length.2
          rw [none] at long
          cases long

theorem encode_injective : Function.Injective encode := by
  intro bytes bytes' same
  have decoded := decodeGroups_encode bytes
  rw [same, decodeGroups_encode] at decoded
  exact (Option.some.inj decoded).symm

/-- What is encoded is decoded, whatever lies behind the table. -/
theorem decode_encode (beyond : List Char) (bytes : List UInt8) :
    decode beyond (encode bytes) = some bytes := by
  cases bytes with
  | nil => rfl
  | cons b bytes =>
      rw [decode, (encode_wellFormed _ (List.cons_ne_nil b bytes)).accepted beyond, if_pos rfl]
      exact decodeGroups_encode (b :: bytes)

/-! ## Bits that the padding leaves over -/

def spare : List Char → ℕ
  | [_, c1, c2, c3] =>
      if c2 = '=' then (toBinary c1).getD 0 % 16
      else if c3 = '=' then (toBinary c2).getD 0 % 4
      else 0
  | _ :: _ :: _ :: _ :: rest => spare rest
  | _ => 0

def cleared : List Char → List Char
  | [c0, c1, c2, c3] =>
      if c2 = '=' then [c0, getChar ((toBinary c1).getD 0 / 16 * 16), c2, c3]
      else if c3 = '=' then [c0, c1, getChar ((toBinary c2).getD 0 / 4 * 4), c3]
      else [c0, c1, c2, c3]
  | c0 :: c1 :: c2 :: c3 :: rest => c0 :: c1 :: c2 :: c3 :: cleared rest
  | text => text

section Groups
variable {n0 n1 n2 n3 : ℕ}

theorem sextets_octets (small0 : n0 < 64) (small1 : n1 < 64) (small2 : n2 < 64)
    (small3 : n3 < 64) : sextet0 (octet0 n0 n1) = n0 ∧
    sextet1 (octet0 n0 n1) (octet1 n1 n2) = n1 ∧
    sextet2 (octet1 n1 n2) (octet2 n2 n3) = n2 ∧ sextet3 (octet2 n2 n3) = n3 := by
  rw [sextet0_eq, sextet1_eq, sextet2_eq, sextet3_eq, octet0_toNat small0 small1,
    octet1_toNat small1 small2, octet2_toNat small2 small3]
  omega

theorem sextet1_zero (small0 : n0 < 64) (small1 : n1 < 64) :
    sextet1 (octet0 n0 n1) 0 = n1 / 16 * 16 := by
  have zero : (0 : UInt8).toNat = 0 := rfl
  rw [sextet1_eq, octet0_toNat small0 small1, zero]
  omega

theorem sextet2_zero (small1 : n1 < 64) (small2 : n2 < 64) :
    sextet2 (octet1 n1 n2) 0 = n2 / 4 * 4 := by
  have zero : (0 : UInt8).toNat = 0 := rfl
  rw [sextet2_eq, octet1_toNat small1 small2, zero]
  omega

theorem getChar_inj (small0 : n0 < 64) (small1 : n1 < 64) : getChar n0 = getChar n1 ↔ n0 = n1 := by
  constructor
  · intro same
    have read := toBinary_getChar small0
    rw [same, toBinary_getChar small1] at read
    exact (Option.some.inj read).symm
  · rintro rfl
    rfl

end Groups

namespace WellFormed
variable {text : List Char}

theorem cleared_eq_iff (formed : WellFormed text) : cleared text = text ↔ spare text = 0 := by
  induction formed with
  | full m0 m1 m2 m3 => simp [cleared, spare, ne_pad m2, ne_pad m3]
  | pad m0 m1 m2 =>
      obtain ⟨n2, small2, read2, rfl⟩ := exists_sextet m2
      have cut : n2 / 4 * 4 < 64 := by omega
      simp only [cleared, spare, read2, ne_pad m2, if_false, if_true, Option.getD_some,
        List.cons.injEq, and_true, true_and, getChar_inj cut small2]
      omega
  | pads m0 m1 =>
      obtain ⟨n1, small1, read1, rfl⟩ := exists_sextet m1
      have cut : n1 / 16 * 16 < 64 := by omega
      simp only [cleared, spare, read1, if_true, Option.getD_some, List.cons.injEq, and_true,
        true_and, getChar_inj cut small1]
      omega
  | @group c0 c1 c2 c3 rest m0 m1 m2 m3 later ih =>
      have nonempty : rest ≠ [] := by
        rintro rfl
        cases later
      obtain ⟨c, text, rfl⟩ := List.exists_cons_of_ne_nil nonempty
      simp [cleared, spare, ih]

theorem decoded (formed : WellFormed text) :
    ∃ bytes, decodeGroups text = some bytes ∧ encode bytes = cleared text := by
  induction formed with
  | full m0 m1 m2 m3 =>
      obtain ⟨n0, small0, read0, rfl⟩ := exists_sextet m0
      obtain ⟨n1, small1, read1, rfl⟩ := exists_sextet m1
      obtain ⟨n2, small2, read2, rfl⟩ := exists_sextet m2
      obtain ⟨n3, small3, read3, rfl⟩ := exists_sextet m3
      obtain ⟨same0, same1, same2, same3⟩ := sextets_octets small0 small1 small2 small3
      refine ⟨[octet0 n0 n1, octet1 n1 n2, octet2 n2 n3], ?_, ?_⟩
      · simp [decodeGroups, decodeLast, read0, read1, read2, read3, ne_pad m2, ne_pad m3]
      · simp [encode, cleared, same0, same1, same2, same3, ne_pad m2, ne_pad m3]
  | pad m0 m1 m2 =>
      obtain ⟨n0, small0, read0, rfl⟩ := exists_sextet m0
      obtain ⟨n1, small1, read1, rfl⟩ := exists_sextet m1
      obtain ⟨n2, small2, read2, rfl⟩ := exists_sextet m2
      obtain ⟨same0, same1, -, -⟩ := sextets_octets small0 small1 small2 small2
      refine ⟨[octet0 n0 n1, octet1 n1 n2], ?_, ?_⟩
      · simp [decodeGroups, decodeLast, read0, read1, read2, ne_pad m2]
      · simp [encode, cleared, same0, same1, sextet2_zero small1 small2, read2, ne_pad m2]
  | pads m0 m1 =>
      obtain ⟨n0, small0, read0, rfl⟩ := exists_sextet m0
      obtain ⟨n1, small1, read1, rfl⟩ := exists_sextet m1
      obtain ⟨same0, -, -, -⟩ := sextets_octets small0 small1 small1 small1
      refine ⟨[octet0 n0 n1], ?_, ?_⟩
      · simp [decodeGroups, decodeLast, read0, read1]
      · simp [encode, cleared, same0, sextet1_zero small0 small1, read1]
  | @group c0 c1 c2 c3 rest m0 m1 m2 m3 later ih =>
      obtain ⟨n0, small0, read0, rfl⟩ := exists_sextet m0
      obtain ⟨n1, small1, read1, rfl⟩ := exists_sextet m1
      obtain ⟨n2, small2, read2, rfl⟩ := exists_sextet m2
      obtain ⟨n3, small3, read3, rfl⟩ := exists_sextet m3
      obtain ⟨same0, same1, same2, same3⟩ := sextets_octets small0 small1 small2 small3
      obtain ⟨bytes, reads, again⟩ := ih
      have nonempty : rest ≠ [] := by
        rintro rfl
        cases later
      have first : decodeGroup (getChar n0) (getChar n1) (getChar n2) (getChar n3) =
          some [octet0 n0 n1, octet1 n1 n2, octet2 n2 n3] := by
        simp [decodeGroup, read0, read1, read2, read3]
      refine ⟨[octet0 n0 n1, octet1 n1 n2, octet2 n2 n3] ++ bytes,
        decodeGroups_full m2 m3 first (fun _ => reads) fun none => absurd none nonempty, ?_⟩
      obtain ⟨c, text, rfl⟩ := List.exists_cons_of_ne_nil nonempty
      simp [encode, cleared, same0, same1, same2, same3, again]

theorem decode_eq (formed : WellFormed text) (beyond : List Char) :
    decode beyond text = decodeGroups text := by
  rw [decode, formed.accepted beyond, if_pos rfl]

end WellFormed

theorem check_apart {beyond text : List Char} (apart : ∀ c ∈ text, c ∉ beyond) :
    check beyond text = check [] text := by
  have same : (text.findIdx? fun c => c ∉ char64s ++ beyond) =
      text.findIdx? fun c => c ∉ char64s ++ [] := by
    induction text with
    | nil => rfl
    | cons c text ih =>
        obtain ⟨first, later⟩ := List.forall_mem_cons.mp apart
        rw [List.findIdx?_cons, List.findIdx?_cons, ih later]
        simp [first]
  rw [check, check, wellPlaced, wellPlaced, same]

/-- Whatever lies behind the table, a well-formed text is decoded, and it is the encoding of its bytes
when the bits are zero that its padding leaves over; no other text is accepted unless one of its
characters lies there. -/
theorem encode_decode_iff (beyond text : List Char) :
    ((∀ c ∈ text, c ∉ beyond) → check beyond text = true → WellFormed text) ∧
    (WellFormed text → check beyond text = true ∧
      ∃ bytes, decode beyond text = some bytes ∧ (encode bytes = text ↔ spare text = 0)) ∧
    ∀ text', WellFormed text → WellFormed text' →
      (decode beyond text = decode beyond text' ↔ cleared text = cleared text') := by
  refine ⟨fun apart accepted => ?_, fun formed => ⟨formed.accepted beyond, ?_⟩, ?_⟩
  · rw [check_apart apart] at accepted
    exact wellFormed_of_accepted accepted
  · obtain ⟨bytes, reads, again⟩ := formed.decoded
    refine ⟨bytes, (formed.decode_eq beyond).trans reads, ?_⟩
    rw [again, formed.cleared_eq_iff]
  · intro text' formed formed'
    obtain ⟨bytes, reads, again⟩ := formed.decoded
    obtain ⟨bytes', reads', again'⟩ := formed'.decoded
    rw [formed.decode_eq, formed'.decode_eq, reads, reads', Option.some_inj, ← again, ← again',
      encode_injective.eq_iff]

/-- With a padding character behind the table, a text is accepted that is not well formed. -/
example : decode [] "TWF=".toList = decode [] "TWE=".toList ∧
    check [] "A=A=".toList = false ∧ check ['='] "A=A=".toList = true := by
  decide +kernel

end SpotGridBot.LibBase64
