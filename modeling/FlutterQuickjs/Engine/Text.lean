import Mathlib.Algebra.Group.Nat.Defs
import Mathlib.Data.List.TakeWhile
import Mathlib.Tactic.SplitIfs

namespace FlutterQuickjs.Engine

/-- Strings of both languages are sequences of UTF-16 code units. -/
abbrev Units := List UInt16

/-- The bytes a C string holds before its NUL. -/
abbrev CString := List UInt8

def units (s : String) : Units := s.toList.map fun c => UInt16.ofNat c.toNat

def isHigh (c : UInt16) : Bool := 0xd800 ≤ c.toNat && c.toNat < 0xdc00

def isLow (c : UInt16) : Bool := 0xdc00 ≤ c.toNat && c.toNat < 0xe000

def surrogatePair (hi lo : UInt16) : Nat :=
  (hi.toNat % 0x400) * 0x400 + lo.toNat % 0x400 + 0x10000

/-- `unicode_to_utf8` below 0x200000, which covers every code point. -/
def unicodeToUtf8 (c : Nat) : CString :=
  if c < 0x80 then [UInt8.ofNat c]
  else if c < 0x800 then [UInt8.ofNat (0xc0 + c / 64), UInt8.ofNat (0x80 + c % 64)]
  else if c < 0x10000 then
    [UInt8.ofNat (0xe0 + c / 4096), UInt8.ofNat (0x80 + c / 64 % 64), UInt8.ofNat (0x80 + c % 64)]
  else
    [UInt8.ofNat (0xf0 + c / 262144), UInt8.ofNat (0x80 + c / 4096 % 64),
      UInt8.ofNat (0x80 + c / 64 % 64), UInt8.ofNat (0x80 + c % 64)]

/-- The bytes of `JS_ToCStringLen2`; unmatched surrogates are kept as code points. -/
def toUtf8 : Units → CString
  | [] => []
  | [c] => unicodeToUtf8 c.toNat
  | c :: c1 :: rest =>
    if isHigh c && isLow c1 then unicodeToUtf8 (surrogatePair c c1) ++ toUtf8 rest
    else unicodeToUtf8 c.toNat ++ toUtf8 (c1 :: rest)

def sequenceLength (b : Nat) : Option Nat :=
  if b < 0xc0 then none
  else if b < 0xe0 then some 1
  else if b < 0xf0 then some 2
  else if b < 0xf8 then some 3
  else if b < 0xfc then some 4
  else if b < 0xfe then some 5
  else none

def utf8MinCode : Nat → Nat
  | 1 => 0x80
  | 2 => 0x800
  | 3 => 0x10000
  | 4 => 0x200000
  | _ => 0x4000000

def continuationBytes : Nat → Nat → CString → Option (Nat × CString)
  | 0, c, rest => some (c,rest)
  | l + 1, c, b :: rest =>
    if b.toNat < 0x80 ∨ 0xc0 ≤ b.toNat then none
    else continuationBytes l (c * 64 + b.toNat % 64) rest
  | _ + 1, _, [] => none

def unicodeFromUtf8 : CString → Option (Nat × CString)
  | [] => none
  | b :: rest =>
    if b.toNat < 0x80 then some (b.toNat,rest)
    else do
      let l ← sequenceLength b.toNat
      let (c,rest) ← continuationBytes l (b.toNat % 2 ^ (6 - l)) rest
      if c < utf8MinCode l then none else some (c,rest)

def isContinuation (b : UInt8) : Bool := 0x80 ≤ b.toNat && b.toNat < 0xc0

/-- Where `JS_NewStringLen` goes on after an invalid sequence. -/
def skipInvalid (bytes : CString) : CString :=
  ((bytes.dropWhile isContinuation).drop 1).dropWhile isContinuation

/-- The loop of `JS_NewStringLen`; the first argument bounds its rounds by the bytes left. -/
def fromUtf8Loop : Nat → CString → Units
  | 0, _ => []
  | _, [] => []
  | n + 1, bytes@(_ :: _) =>
    match unicodeFromUtf8 bytes with
    | some (c,rest) =>
      if c < 0x10000 then UInt16.ofNat c :: fromUtf8Loop n rest
      else if c ≤ 0x10ffff then
        UInt16.ofNat ((c - 0x10000) / 0x400 + 0xd800) ::
          UInt16.ofNat ((c - 0x10000) % 0x400 + 0xdc00) :: fromUtf8Loop n rest
      else 0xfffd :: fromUtf8Loop n (skipInvalid bytes)
    | none => 0xfffd :: fromUtf8Loop n (skipInvalid bytes)

def fromUtf8 (bytes : CString) : Units := fromUtf8Loop bytes.length bytes

/-- What a C string shows of a string's UTF-8 form. -/
def cString (s : Units) : CString := (toUtf8 s).takeWhile (· != 0)

/-- Every surrogate stands in a pair. -/
def wellFormed : Units → Bool
  | [] => true
  | [c] => !(isHigh c || isLow c)
  | c :: c1 :: rest =>
    if isHigh c && isLow c1 then wellFormed rest
    else !(isHigh c || isLow c) && wellFormed (c1 :: rest)

/-- Unpaired surrogates become U+FFFD. -/
def scrub : Units → Units
  | [] => []
  | [c] => if isHigh c || isLow c then [0xfffd] else [c]
  | c :: c1 :: rest =>
    if isHigh c && isLow c1 then c :: c1 :: scrub rest
    else (if isHigh c || isLow c then 0xfffd else c) :: scrub (c1 :: rest)

/-- A well-formed string without NUL. -/
def Clean (s : Units) : Prop := wellFormed s = true ∧ 0 ∉ s

instance (s : Units) : Decidable (Clean s) := inferInstanceAs (Decidable (_ ∧ _))

/-- The byte order mark. -/
def bom : UInt16 := 0xfeff

/-- What `utf8.decode` leaves of a decoded text: one leading byte order mark is discarded. -/
def dropBom : Units → Units
  | [] => []
  | c :: rest => if c = bom then rest else c :: rest

/-- A clean string that Dart reads as it is. -/
def Unmarked (s : Units) : Prop := Clean s ∧ s.head? ≠ some bom

instance (s : Units) : Decidable (Unmarked s) := inferInstanceAs (Decidable (_ ∧ _))

/-- The string conversions of package:ffi: `toNativeUtf8` writes a NUL-terminated UTF-8 buffer
with unpaired surrogates replaced, `toDartString` is `utf8.decode` on one, which rejects
malformed UTF-8. -/
class PackageFfi where
  toNativeUtf8 : Units → CString
  toDartString : CString → Option Units
  toNativeUtf8_eq : ∀ s, toNativeUtf8 s = cString (scrub s)
  toDartString_eq_some : ∀ bytes s,
    toDartString bytes = some s ↔ ∃ t, Clean t ∧ toUtf8 t = bytes ∧ s = dropBom t

export PackageFfi (toNativeUtf8 toDartString)

private theorem toNat_ofNat_of_lt {n : Nat} (h : n < 256) : (UInt8.ofNat n).toNat = n := by
  rw [UInt8.toNat_ofNat']
  exact Nat.mod_eq_of_lt h

theorem unicodeFromUtf8_unicodeToUtf8 {c : Nat} (small : c < 0x110000) (rest : CString) :
    unicodeFromUtf8 (unicodeToUtf8 c ++ rest) = some (c,rest) := by
  unfold unicodeToUtf8
  split_ifs with h1 h2 h3
  · simp only [List.cons_append, List.nil_append, unicodeFromUtf8,
      toNat_ofNat_of_lt (show c < 256 by omega), h1, if_true]
  · have lead : (UInt8.ofNat (0xc0 + c / 64)).toNat = 0xc0 + c / 64 :=
      toNat_ofNat_of_lt (by omega)
    have last : (UInt8.ofNat (0x80 + c % 64)).toNat = 0x80 + c % 64 :=
      toNat_ofNat_of_lt (by omega)
    have length : sequenceLength (0xc0 + c / 64) = some 1 := by
      unfold sequenceLength
      split_ifs <;> first | rfl | omega
    simp only [List.cons_append, List.nil_append, unicodeFromUtf8, lead, length]
    rw [if_neg (by omega)]
    simp only [Option.bind_eq_bind, Option.bind_some, continuationBytes, last, utf8MinCode]
    rw [if_neg (by omega), Option.bind_some, if_neg (by omega)]
    congr 2
    omega
  · have lead : (UInt8.ofNat (0xe0 + c / 4096)).toNat = 0xe0 + c / 4096 :=
      toNat_ofNat_of_lt (by omega)
    have mid : (UInt8.ofNat (0x80 + c / 64 % 64)).toNat = 0x80 + c / 64 % 64 :=
      toNat_ofNat_of_lt (by omega)
    have last : (UInt8.ofNat (0x80 + c % 64)).toNat = 0x80 + c % 64 :=
      toNat_ofNat_of_lt (by omega)
    have length : sequenceLength (0xe0 + c / 4096) = some 2 := by
      unfold sequenceLength
      split_ifs <;> first | rfl | omega
    simp only [List.cons_append, List.nil_append, unicodeFromUtf8, lead, length]
    rw [if_neg (by omega)]
    simp only [Option.bind_eq_bind, Option.bind_some, continuationBytes, mid, last, utf8MinCode]
    rw [if_neg (by omega), if_neg (by omega), Option.bind_some, if_neg (by omega)]
    congr 2
    omega
  · have lead : (UInt8.ofNat (0xf0 + c / 262144)).toNat = 0xf0 + c / 262144 :=
      toNat_ofNat_of_lt (by omega)
    have high : (UInt8.ofNat (0x80 + c / 4096 % 64)).toNat = 0x80 + c / 4096 % 64 :=
      toNat_ofNat_of_lt (by omega)
    have mid : (UInt8.ofNat (0x80 + c / 64 % 64)).toNat = 0x80 + c / 64 % 64 :=
      toNat_ofNat_of_lt (by omega)
    have last : (UInt8.ofNat (0x80 + c % 64)).toNat = 0x80 + c % 64 :=
      toNat_ofNat_of_lt (by omega)
    have length : sequenceLength (0xf0 + c / 262144) = some 3 := by
      unfold sequenceLength
      split_ifs <;> first | rfl | omega
    simp only [List.cons_append, List.nil_append, unicodeFromUtf8, lead, length]
    rw [if_neg (by omega)]
    simp only [Option.bind_eq_bind, Option.bind_some, continuationBytes, high, mid, last,
      utf8MinCode]
    rw [if_neg (by omega), if_neg (by omega), if_neg (by omega), Option.bind_some,
      if_neg (by omega)]
    congr 2
    omega

theorem unicodeToUtf8_ne_nil (c : Nat) : unicodeToUtf8 c ≠ [] := by
  unfold unicodeToUtf8
  split_ifs <;> exact List.cons_ne_nil _ _

private theorem length_unicodeToUtf8_pos (c : Nat) : 0 < (unicodeToUtf8 c).length :=
  List.length_pos_iff.mpr (unicodeToUtf8_ne_nil c)

private theorem fromUtf8Loop_step {n c : Nat} (small : c < 0x110000) (rest : CString) :
    fromUtf8Loop (n+1) (unicodeToUtf8 c ++ rest) =
      if c < 0x10000 then UInt16.ofNat c :: fromUtf8Loop n rest
      else UInt16.ofNat ((c - 0x10000) / 0x400 + 0xd800) ::
        UInt16.ofNat ((c - 0x10000) % 0x400 + 0xdc00) :: fromUtf8Loop n rest := by
  have decoded := unicodeFromUtf8_unicodeToUtf8 small rest
  cases bytes : unicodeToUtf8 c ++ rest with
  | nil => exact absurd (List.append_eq_nil_iff.mp bytes).1 (unicodeToUtf8_ne_nil c)
  | cons b more =>
    rw [bytes] at decoded
    simp only [fromUtf8Loop, decoded]
    rw [if_pos (show c ≤ 0x10ffff by omega)]

private theorem fromUtf8Loop_toUtf8 {s : Units} {n : Nat} (wf : wellFormed s = true)
    (enough : (toUtf8 s).length ≤ n) : fromUtf8Loop n (toUtf8 s) = s := by
  induction s using toUtf8.induct generalizing n with
  | case1 => cases n <;> rfl
  | case2 c =>
    have step := length_unicodeToUtf8_pos c.toNat
    obtain ⟨n, rfl⟩ : ∃ k, n = k + 1 := ⟨n - 1, by simp only [toUtf8] at enough; omega⟩
    have stepped := @fromUtf8Loop_step n c.toNat (by have := c.toNat_lt; omega) []
    rw [List.append_nil, if_pos c.toNat_lt] at stepped
    rw [toUtf8, stepped, UInt16.ofNat_toNat]
    cases n <;> rfl
  | case3 c c1 rest pair ih =>
    simp only [wellFormed, pair, if_true] at wf
    rw [toUtf8, if_pos pair] at enough ⊢
    rw [List.length_append] at enough
    have step := length_unicodeToUtf8_pos (surrogatePair c c1)
    obtain ⟨n, rfl⟩ : ∃ k, n = k + 1 := ⟨n - 1, by omega⟩
    simp only [isHigh, isLow, Bool.and_eq_true, decide_eq_true_eq] at pair
    have value : surrogatePair c c1 =
        (c.toNat - 0xd800) * 0x400 + (c1.toNat - 0xdc00) + 0x10000 := by
      unfold surrogatePair
      omega
    rw [fromUtf8Loop_step (by omega), if_neg (by omega), ih wf (by omega), value]
    have hi : ((c.toNat - 0xd800) * 0x400 + (c1.toNat - 0xdc00) + 0x10000 - 0x10000) / 0x400 +
        0xd800 = c.toNat := by omega
    have lo : ((c.toNat - 0xd800) * 0x400 + (c1.toNat - 0xdc00) + 0x10000 - 0x10000) % 0x400 +
        0xdc00 = c1.toNat := by omega
    rw [hi, lo, UInt16.ofNat_toNat, UInt16.ofNat_toNat]
  | case4 c c1 rest pair ih =>
    simp only [wellFormed, pair, Bool.false_eq_true, if_false, Bool.and_eq_true] at wf
    rw [toUtf8, if_neg pair] at enough ⊢
    rw [List.length_append] at enough
    have step := length_unicodeToUtf8_pos c.toNat
    obtain ⟨n, rfl⟩ : ∃ k, n = k + 1 := ⟨n - 1, by omega⟩
    rw [fromUtf8Loop_step (by have := c.toNat_lt; omega), if_pos c.toNat_lt,
      ih wf.2 (by omega), UInt16.ofNat_toNat]

/-- The engine's own codec loses nothing of a well-formed string. -/
theorem fromUtf8_toUtf8 {s : Units} (wf : wellFormed s = true) : fromUtf8 (toUtf8 s) = s :=
  fromUtf8Loop_toUtf8 wf (Nat.le_refl _)

private theorem zero_not_mem_unicodeToUtf8 {c : Nat} (pos : 0 < c) (small : c < 0x110000) :
    (0 : UInt8) ∉ unicodeToUtf8 c := by
  have nonzero : ∀ n : Nat, 0 < n → n < 256 → (0 : UInt8) ≠ UInt8.ofNat n := by
    intro n pos small same
    have value := congrArg UInt8.toNat same
    rw [toNat_ofNat_of_lt small] at value
    exact absurd value (by simp; omega)
  unfold unicodeToUtf8
  split_ifs <;> simp only [List.mem_cons, List.not_mem_nil, or_false, not_or]
  · exact nonzero _ pos (by omega)
  · exact ⟨nonzero _ (by omega) (by omega), nonzero _ (by omega) (by omega)⟩
  · exact ⟨nonzero _ (by omega) (by omega), nonzero _ (by omega) (by omega),
      nonzero _ (by omega) (by omega)⟩
  · exact ⟨nonzero _ (by omega) (by omega), nonzero _ (by omega) (by omega),
      nonzero _ (by omega) (by omega), nonzero _ (by omega) (by omega)⟩

private theorem toNat_pos {c : UInt16} (h : c ≠ 0) : 0 < c.toNat := by
  rcases Nat.eq_zero_or_pos c.toNat with zero | pos
  · exact absurd (UInt16.toNat_inj.mp (zero.trans (by simp))) h
  · exact pos

theorem zero_not_mem_toUtf8 {s : Units} (free : 0 ∉ s) : (0 : UInt8) ∉ toUtf8 s := by
  induction s using toUtf8.induct with
  | case1 => simp [toUtf8]
  | case2 c =>
    rw [toUtf8]
    exact zero_not_mem_unicodeToUtf8 (toNat_pos fun h => free (by simp [h]))
      (by have := c.toNat_lt; omega)
  | case3 c c1 rest pair ih =>
    simp only [List.mem_cons, not_or] at free
    rw [toUtf8, if_pos pair, List.mem_append, not_or]
    refine ⟨zero_not_mem_unicodeToUtf8 ?_ ?_, ih free.2.2⟩ <;> unfold surrogatePair <;> omega
  | case4 c c1 rest pair ih =>
    rw [List.mem_cons, not_or] at free
    rw [toUtf8, if_neg pair, List.mem_append, not_or]
    exact ⟨zero_not_mem_unicodeToUtf8 (toNat_pos (Ne.symm free.1))
      (by have := c.toNat_lt; omega), ih free.2⟩

theorem cString_of_zero_not_mem {s : Units} (free : 0 ∉ s) : cString s = toUtf8 s := by
  refine List.takeWhile_eq_self_iff.mpr fun b inside => ?_
  have : b ≠ 0 := fun zero => zero_not_mem_toUtf8 free (zero ▸ inside)
  simpa using this

theorem scrub_of_wellFormed {s : Units} (wf : wellFormed s = true) : scrub s = s := by
  induction s using scrub.induct with
  | case1 => rfl
  | case2 c h => simp [wellFormed, h] at wf
  | case3 c h => simp [scrub, h]
  | case4 c c1 rest pair ih =>
    simp only [wellFormed, pair, if_true] at wf
    simp only [scrub, pair, if_true, ih wf]
  | case5 c c1 rest pair ih =>
    simp only [wellFormed, pair, Bool.false_eq_true, if_false, Bool.and_eq_true,
      Bool.not_eq_true'] at wf
    simp only [scrub, pair, wf.1, Bool.false_eq_true, if_false, ih wf.2]

theorem wellFormed_cons {c : UInt16} (alone : (isHigh c || isLow c) = false) (s : Units) :
    wellFormed (c :: s) = wellFormed s := by
  cases s with
  | nil => simp [wellFormed, alone]
  | cons c1 rest =>
    have high : isHigh c = false := (Bool.or_eq_false_iff.mp alone).1
    rw [wellFormed, high, Bool.false_and, if_neg Bool.false_ne_true, ← high, alone]
    rfl

theorem toUtf8_cons {c : UInt16} (alone : (isHigh c || isLow c) = false) (s : Units) :
    toUtf8 (c :: s) = unicodeToUtf8 c.toNat ++ toUtf8 s := by
  cases s with
  | nil => simp [toUtf8]
  | cons c1 rest =>
    have high : isHigh c = false := (Bool.or_eq_false_iff.mp alone).1
    rw [toUtf8, high, Bool.false_and, if_neg Bool.false_ne_true]

theorem wellFormed_scrub (s : Units) : wellFormed (scrub s) = true := by
  have replacement : (isHigh 0xfffd || isLow 0xfffd) = false := by decide
  induction s using scrub.induct with
  | case1 => rfl
  | case2 c h => simp only [scrub, h, if_true]; rfl
  | case3 c h => simp [scrub, h, wellFormed]
  | case4 c c1 rest pair ih => simp only [scrub, pair, if_true, wellFormed, ih]
  | case5 c c1 rest pair ih =>
    rw [scrub, if_neg pair]
    split
    · rw [wellFormed_cons replacement, ih]
    · rename_i alone
      rw [wellFormed_cons (by simpa using alone), ih]

/-- Cutting a well-formed string at its first NUL is cutting its bytes there. -/
private theorem takeWhile_toUtf8 {s : Units} (wf : wellFormed s = true) :
    (toUtf8 s).takeWhile (· != 0) = toUtf8 (s.takeWhile (· != 0)) ∧
      wellFormed (s.takeWhile (· != 0)) = true := by
  have whole : ∀ {n : Nat} (rest : CString), 0 < n → n < 0x110000 →
      (unicodeToUtf8 n ++ rest).takeWhile (· != 0) =
        unicodeToUtf8 n ++ rest.takeWhile (· != 0) := by
    intro n rest pos small
    refine List.takeWhile_append_of_pos fun b inside => ?_
    have : b ≠ 0 := fun zero => zero_not_mem_unicodeToUtf8 pos small (zero ▸ inside)
    simpa using this
  have cons : ∀ (c : UInt16) (rest : Units), (isHigh c || isLow c) = false →
      ((toUtf8 rest).takeWhile (· != 0) = toUtf8 (rest.takeWhile (· != 0)) ∧
        wellFormed (rest.takeWhile (· != 0)) = true) →
      (toUtf8 (c :: rest)).takeWhile (· != 0) = toUtf8 ((c :: rest).takeWhile (· != 0)) ∧
        wellFormed ((c :: rest).takeWhile (· != 0)) = true := by
    intro c rest alone ih
    by_cases zero : c = 0
    · subst zero
      simp [toUtf8_cons alone, unicodeToUtf8, toUtf8, wellFormed]
    · rw [toUtf8_cons alone, whole _ (toNat_pos zero) (by have := c.toNat_lt; omega), ih.1,
        List.takeWhile_cons_of_pos (by simpa using zero), toUtf8_cons alone,
        wellFormed_cons alone]
      exact ⟨rfl, ih.2⟩
  induction s using toUtf8.induct with
  | case1 => exact ⟨rfl, rfl⟩
  | case2 c => exact cons c [] (by simpa [wellFormed] using wf) ⟨rfl, rfl⟩
  | case3 c c1 rest pair ih =>
    simp only [wellFormed, pair, if_true] at wf
    have surrogates := pair
    simp only [isHigh, isLow, Bool.and_eq_true, decide_eq_true_eq] at surrogates
    have hi : c ≠ 0 := by rintro rfl; simp at surrogates
    have lo : c1 ≠ 0 := by rintro rfl; simp at surrogates
    obtain ⟨bytes, kept⟩ := ih wf
    rw [toUtf8, if_pos pair, whole _ (by unfold surrogatePair; omega)
        (by unfold surrogatePair; omega),
      List.takeWhile_cons_of_pos (by simpa using hi),
      List.takeWhile_cons_of_pos (by simpa using lo), toUtf8, if_pos pair, bytes, wellFormed,
      if_pos pair]
    exact ⟨rfl, kept⟩
  | case4 c c1 rest pair ih =>
    simp only [wellFormed, pair, Bool.false_eq_true, if_false, Bool.and_eq_true,
      Bool.not_eq_true'] at wf
    exact cons c (c1 :: rest) wf.1 (ih wf.2)

/-- The string that arrives in the engine when Dart sends `s`. -/
def sent (s : Units) : Units := (scrub s).takeWhile (· != 0)

theorem clean_sent (s : Units) : Clean (sent s) := by
  refine ⟨(takeWhile_toUtf8 (wellFormed_scrub s)).2, fun inside => ?_⟩
  have := List.mem_takeWhile_imp inside
  simp at this

theorem sent_of_clean {s : Units} (clean : Clean s) : sent s = s := by
  rw [sent, scrub_of_wellFormed clean.1]
  refine List.takeWhile_eq_self_iff.mpr fun c inside => ?_
  have : c ≠ 0 := fun zero => clean.2 (zero ▸ inside)
  simpa using this

theorem clean_dropBom {s : Units} (clean : Clean s) : Clean (dropBom s) := by
  cases s with
  | nil => exact clean
  | cons c rest =>
    rw [dropBom]
    split
    · rename_i marked
      refine ⟨?_, fun zero => clean.2 (List.mem_cons_of_mem _ zero)⟩
      have wf := clean.1
      rwa [wellFormed_cons (by rw [marked]; decide)] at wf
    · exact clean

theorem dropBom_of_unmarked {s : Units} (unmarked : s.head? ≠ some bom) : dropBom s = s := by
  cases s with
  | nil => rfl
  | cons c rest => rw [dropBom, if_neg (by simpa using unmarked)]

theorem length_dropBom_le (s : Units) : (dropBom s).length ≤ s.length := by
  cases s with
  | nil => exact le_rfl
  | cons c rest =>
    rw [dropBom]
    split
    · exact Nat.le_succ _
    · exact le_rfl

theorem head?_of_length_dropBom {s : Units} (kept : s.length ≤ (dropBom s).length) :
    s.head? ≠ some bom := by
  cases s with
  | nil => simp
  | cons c rest =>
    intro marked
    rw [dropBom, if_pos (by simpa using marked), List.length_cons] at kept
    omega

section

variable [PackageFfi]

theorem toNativeUtf8_eq_toUtf8 (s : Units) : toNativeUtf8 s = toUtf8 (sent s) := by
  rw [PackageFfi.toNativeUtf8_eq, cString, (takeWhile_toUtf8 (wellFormed_scrub s)).1, sent]

theorem fromUtf8_toNativeUtf8 (s : Units) : fromUtf8 (toNativeUtf8 s) = sent s := by
  rw [toNativeUtf8_eq_toUtf8]
  exact fromUtf8_toUtf8 (clean_sent s).1

theorem fromUtf8_toNativeUtf8_of_clean {s : Units} (clean : Clean s) :
    fromUtf8 (toNativeUtf8 s) = s := by
  rw [fromUtf8_toNativeUtf8, sent_of_clean clean]

/-- A clean string arrives in Dart without its byte order mark. -/
theorem toDartString_cString {s : Units} (clean : Clean s) :
    toDartString (cString s) = some (dropBom s) :=
  (PackageFfi.toDartString_eq_some _ _).mpr
    ⟨s, clean, (cString_of_zero_not_mem clean.2).symm, rfl⟩

end

/-- A property name that `JS_NewAtomLen` takes for itself: one that starts with a digit is not
looked up, one in ASCII is found as it is. -/
def literal (name : CString) : Bool :=
  name.all (fun b => b.toNat < 0x80) || name.head?.any fun b => 0x30 ≤ b.toNat && b.toNat ≤ 0x39

/-- The 8-bit string whose characters are these bytes. -/
def latin1 (name : CString) : Units := name.map UInt8.toUInt16

/-- The name that `JS_NewAtomLen` gives an atom: other names are looked up among the 8-bit atoms
by their very bytes, and decoded if none is found. -/
def atomName (found : CString → Bool) (name : CString) : Units :=
  if !literal name && found name then latin1 name else fromUtf8 name

theorem atomName_of_literal {name : CString} (isLiteral : literal name = true)
    (found : CString → Bool) : atomName found name = fromUtf8 name := by
  simp [atomName, isLiteral]

private theorem ascii_of_length_unicodeToUtf8 {c : Nat} (single : (unicodeToUtf8 c).length ≤ 1) :
    (unicodeToUtf8 c).all (fun b => b.toNat < 0x80) = true := by
  unfold unicodeToUtf8 at *
  split_ifs at * with ascii
  · simp [Nat.mod_eq_of_lt (show c < 256 by omega), ascii]
  all_goals simp at single

theorem length_le_toUtf8 (s : Units) : s.length ≤ (toUtf8 s).length := by
  induction s using toUtf8.induct with
  | case1 => exact le_rfl
  | case2 c => exact length_unicodeToUtf8_pos c.toNat
  | case3 c c1 rest pair ih =>
    have four : (unicodeToUtf8 (surrogatePair c c1)).length = 4 := by
      unfold unicodeToUtf8 surrogatePair
      split_ifs <;> first | omega | rfl
    rw [toUtf8, if_pos pair, List.length_append, four, List.length_cons, List.length_cons]
    omega
  | case4 c c1 rest pair ih =>
    have := length_unicodeToUtf8_pos c.toNat
    rw [toUtf8, if_neg pair, List.length_append, List.length_cons]
    omega

/-- A string whose UTF-8 form is no longer than itself is ASCII. -/
theorem literal_of_length {s : Units} (short : (toUtf8 s).length ≤ s.length) :
    literal (toUtf8 s) = true := by
  have ascii : (toUtf8 s).all (fun b => b.toNat < 0x80) = true := by
    induction s using toUtf8.induct with
    | case1 => rfl
    | case2 c => exact ascii_of_length_unicodeToUtf8 short
    | case3 c c1 rest pair ih =>
      have four : (unicodeToUtf8 (surrogatePair c c1)).length = 4 := by
        unfold unicodeToUtf8 surrogatePair
        split_ifs <;> first | omega | rfl
      have more := length_le_toUtf8 rest
      rw [toUtf8, if_pos pair, List.length_append, four, List.length_cons, List.length_cons] at short
      omega
    | case4 c c1 rest pair ih =>
      have first := length_unicodeToUtf8_pos c.toNat
      have more := length_le_toUtf8 (c1 :: rest)
      rw [toUtf8, if_neg pair, List.length_append, List.length_cons] at short
      rw [toUtf8, if_neg pair, List.all_append, Bool.and_eq_true]
      exact ⟨ascii_of_length_unicodeToUtf8 (by omega), ih (by omega)⟩
  rw [literal, ascii, Bool.true_or]

theorem length_le_atomName {s : Units} (wf : wellFormed s = true) (found : CString → Bool) :
    s.length ≤ (atomName found (toUtf8 s)).length := by
  rw [atomName]
  split
  · rw [latin1, List.length_map]
    exact length_le_toUtf8 s
  · rw [fromUtf8_toUtf8 wf]

/-- Another name than the string's own is longer. -/
theorem literal_of_length_atomName {s : Units}
    (kept : (atomName (fun _ => true) (toUtf8 s)).length ≤ s.length) :
    literal (toUtf8 s) = true := by
  by_contra other
  rw [atomName, if_pos (by simpa using other), latin1, List.length_map] at kept
  exact other (literal_of_length kept)

private theorem toNat_latin1 {name : CString} {c : UInt16} (member : c ∈ latin1 name) :
    c.toNat < 0x100 := by
  obtain ⟨b, -, rfl⟩ := List.mem_map.mp member
  rw [UInt8.toNat_toUInt16]
  exact b.toNat_lt

private theorem wellFormed_of_small {s : Units} (small : ∀ c ∈ s, c.toNat < 0x100) :
    wellFormed s = true := by
  induction s with
  | nil => rfl
  | cons c rest ih =>
    have below := small c (by simp)
    have alone : (isHigh c || isLow c) = false := by
      simp only [isHigh, isLow, Bool.or_eq_false_iff, Bool.and_eq_false_iff, decide_eq_false_iff_not]
      omega
    rw [wellFormed_cons alone]
    exact ih fun c' member => small c' (List.mem_cons_of_mem _ member)

/-- No 8-bit name begins with a byte order mark. -/
theorem head?_atomName {s : Units} (unmarked : Unmarked s) (found : CString → Bool) :
    (atomName found (toUtf8 s)).head? ≠ some bom := by
  rw [atomName]
  split
  · intro marked
    have small := toNat_latin1 (List.mem_of_head? marked)
    exact absurd small (by decide)
  · rw [fromUtf8_toUtf8 unmarked.1.1]
    exact unmarked.2

/-- An ASCII name is only that of itself. -/
theorem atomName_ne {s t : Units} (clean : Clean s) (ascii : ∀ c ∈ t, c.toNat < 0x80) (other : s ≠ t)
    (found : CString → Bool) : atomName found (toUtf8 s) ≠ t := by
  rw [atomName]
  split
  · rename_i foreign
    intro same
    have plain : (toUtf8 s).all (fun b => b.toNat < 0x80) = true := by
      refine List.all_eq_true.mpr fun b member => decide_eq_true ?_
      have below := ascii b.toUInt16 (same ▸ List.mem_map_of_mem member)
      rwa [UInt8.toNat_toUInt16] at below
    simp [literal, plain] at foreign
  · rw [fromUtf8_toUtf8 clean.1]
    exact other

theorem clean_atomName {s : Units} (clean : Clean s) (found : CString → Bool) :
    Clean (atomName found (toUtf8 s)) := by
  rw [atomName]
  split
  · refine ⟨wellFormed_of_small fun c member => toNat_latin1 member, fun zero => ?_⟩
    obtain ⟨b, inside, isZero⟩ := List.mem_map.mp zero
    have value := congrArg UInt16.toNat isZero
    rw [UInt8.toNat_toUInt16] at value
    have : b = 0 := UInt8.toNat_inj.mp (by simpa using value)
    exact zero_not_mem_toUtf8 clean.2 (this ▸ inside)
  · rw [fromUtf8_toUtf8 clean.1]
    exact clean

/-- UTF-8 with the replacement, the rejection and the byte order mark that package:ffi documents. -/
@[reducible] def PackageFfi.utf8 : PackageFfi where
  toNativeUtf8 s := cString (scrub s)
  toDartString bytes :=
    if Clean (fromUtf8 bytes) ∧ toUtf8 (fromUtf8 bytes) = bytes then
      some (dropBom (fromUtf8 bytes))
    else none
  toNativeUtf8_eq _ := rfl
  toDartString_eq_some bytes s := by
    constructor
    · intro read
      split at read
      · rename_i valid
        cases read
        exact ⟨_, valid.1, valid.2, rfl⟩
      · cases read
    · rintro ⟨t, clean, rfl, rfl⟩
      rw [fromUtf8_toUtf8 clean.1, if_pos ⟨clean, rfl⟩]

end FlutterQuickjs.Engine
