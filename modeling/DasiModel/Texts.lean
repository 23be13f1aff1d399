import Mathlib.Data.List.DropRight
import Mathlib.Data.List.Lex
import Mathlib.Data.Fin.Basic
import Mathlib.Algebra.GroupWithZero.Nat

/-!
# Python strings, byte strings and C strings

A Python `str` is a sequence of code points, lone surrogates included. It
reaches the C library as UTF-8 with `surrogateescape`, and the C side reads up
to the first NUL. Nothing here says that these conversions are faithful: which
strings survive them is a question asked of the functions below.
-/

namespace Texts

abbrev CodePoint := Fin 0x110000

abbrev PyStr := List CodePoint

abbrev Byte := Fin 256

abbrev Bytes := List Byte

instance neZeroCodePoints : NeZero 0x110000 := ⟨by decide⟩

instance neZeroBytes : NeZero 256 := ⟨by decide⟩

/-- A Python string literal. -/
def py (text : String) : PyStr := text.toList.map (fun c => Fin.ofNat 0x110000 c.toNat)

/-- An ASCII literal as bytes. -/
def ascii (text : String) : Bytes := text.toList.map (fun c => Fin.ofNat 256 c.toNat)

/-- The code points removed by `str.strip()` without an argument. -/
def isWhitespace (c : CodePoint) : Bool :=
  (0x09 ≤ c.val && c.val ≤ 0x0D) || (0x1C ≤ c.val && c.val ≤ 0x20) || c.val == 0x85 ||
    c.val == 0xA0 || c.val == 0x1680 || (0x2000 ≤ c.val && c.val ≤ 0x200A) ||
    c.val == 0x2028 || c.val == 0x2029 || c.val == 0x202F || c.val == 0x205F || c.val == 0x3000

/-- `str.strip`, with the set of characters to remove as a predicate. -/
def strip (remove : CodePoint → Bool) (text : PyStr) : PyStr :=
  (text.dropWhile remove).rdropWhile remove

/-- UTF-8 of one code point; only the surrogates of escaped bytes have one. -/
def encodePoint (c : CodePoint) : Option Bytes :=
  let n := c.val
  if n < 0x80 then some [Fin.ofNat 256 n]
  else if n < 0x800 then some [Fin.ofNat 256 (0xC0 + n / 64), Fin.ofNat 256 (0x80 + n % 64)]
  else if 0xDC80 ≤ n ∧ n ≤ 0xDCFF then some [Fin.ofNat 256 (n - 0xDC00)]
  else if 0xD800 ≤ n ∧ n ≤ 0xDFFF then none
  else if n < 0x10000 then
    some [Fin.ofNat 256 (0xE0 + n / 4096), Fin.ofNat 256 (0x80 + n / 64 % 64),
      Fin.ofNat 256 (0x80 + n % 64)]
  else
    some [Fin.ofNat 256 (0xF0 + n / 262144), Fin.ofNat 256 (0x80 + n / 4096 % 64),
      Fin.ofNat 256 (0x80 + n / 64 % 64), Fin.ofNat 256 (0x80 + n % 64)]

/-- `data.encode(encoding="utf-8", errors="surrogateescape")`; `none` is the
UnicodeEncodeError on a surrogate that escapes no byte. -/
def ffiEncode : PyStr → Option Bytes
  | [] => some []
  | c :: rest => do
    let head ← encodePoint c
    let tail ← ffiEncode rest
    return head ++ tail

def isTail (b : Byte) : Bool := 0x80 ≤ b.val && b.val ≤ 0xBF

/-- The first code point of a byte string that starts with well-formed UTF-8. -/
def decodePoint : Bytes → Option (CodePoint × Bytes)
  | [] => none
  | a :: rest =>
    if a.val < 0x80 then some (Fin.ofNat _ a.val, rest)
    else match rest with
    | [] => none
    | b :: rest =>
      if 0xC2 ≤ a.val ∧ a.val ≤ 0xDF ∧ isTail b then
        some (Fin.ofNat _ ((a.val - 0xC0) * 64 + (b.val - 0x80)), rest)
      else match rest with
      | [] => none
      | c :: rest =>
        let three := (a.val - 0xE0) * 4096 + (b.val - 0x80) * 64 + (c.val - 0x80)
        if 0xE0 ≤ a.val ∧ a.val ≤ 0xEF ∧ isTail b ∧ isTail c ∧ 0x800 ≤ three ∧
            ¬ (0xD800 ≤ three ∧ three ≤ 0xDFFF) then
          some (Fin.ofNat _ three, rest)
        else match rest with
        | [] => none
        | d :: rest =>
          let four := (a.val - 0xF0) * 262144 + (b.val - 0x80) * 4096 +
            (c.val - 0x80) * 64 + (d.val - 0x80)
          if 0xF0 ≤ a.val ∧ a.val ≤ 0xF4 ∧ isTail b ∧ isTail c ∧ isTail d ∧
              0x10000 ≤ four ∧ four < 0x110000 then
            some (Fin.ofNat _ four, rest)
          else none

/-- Bytes that start no well-formed sequence become surrogates, one by one. -/
def decodeWithin : Nat → Bytes → PyStr
  | 0, _ => []
  | _ + 1, [] => []
  | fuel + 1, b :: rest =>
    match decodePoint (b :: rest) with
    | some (c, rest') => c :: decodeWithin fuel rest'
    | none => Fin.ofNat _ (0xDC00 + b.val) :: decodeWithin fuel rest

/-- `buf.decode(encoding="utf-8", errors="surrogateescape")`. -/
def decode (bytes : Bytes) : PyStr := decodeWithin bytes.length bytes

/-- What C reads through a `const char*` to these bytes. -/
def cString (bytes : Bytes) : Bytes := bytes.takeWhile (· ≠ 0)

/-- `ffi_decode`: `ffi.string` stops at the first NUL, then the text is decoded. -/
def ffiDecode (bytes : Bytes) : PyStr := decode (cString bytes)

example : ffiEncode (py "a" ++ [0xE9, 0x20AC, 0x1F600, 0xDCFF]) =
    some [0x61, 0xC3, 0xA9, 0xE2, 0x82, 0xAC, 0xF0, 0x9F, 0x98, 0x80, 0xFF] := by decide

example : decode [0x61, 0xC3, 0xA9, 0xE2, 0x82, 0xAC, 0xF0, 0x9F, 0x98, 0x80, 0xFF] =
    py "a" ++ [0xE9, 0x20AC, 0x1F600, 0xDCFF] := by decide

/-- A NUL byte comes from a NUL character and from nothing else. -/
theorem zero_mem_encodePoint {c : CodePoint} {bytes : Bytes} (h : encodePoint c = some bytes) :
    (0 : Byte) ∈ bytes ↔ c = 0 := by
  have hc := c.isLt
  simp only [encodePoint] at h
  have hzero : c = 0 ↔ c.val = 0 := Fin.ext_iff
  rw [hzero]
  split_ifs at h <;> cases h <;>
    simp only [List.mem_cons, List.not_mem_nil, or_false, Fin.ext_iff, Fin.val_zero,
      Fin.ofNat_eq_cast, Fin.val_natCast] <;> omega

theorem zero_mem_ffiEncode {text : PyStr} {bytes : Bytes} (h : ffiEncode text = some bytes) :
    (0 : Byte) ∈ bytes ↔ (0 : CodePoint) ∈ text := by
  induction text generalizing bytes with
  | nil =>
    cases h
    simp
  | cons c rest ih =>
    simp only [ffiEncode, Option.bind_eq_bind, Option.bind_eq_some_iff, Option.pure_def,
      Option.some.injEq] at h
    obtain ⟨head, hhead, tail, htail, rfl⟩ := h
    rw [List.mem_append, zero_mem_encodePoint hhead, ih htail, List.mem_cons, eq_comm]

/-- C sees the whole of a byte string exactly when it holds no NUL. -/
theorem cString_eq_self_iff (bytes : Bytes) : cString bytes = bytes ↔ (0 : Byte) ∉ bytes := by
  rw [cString, List.takeWhile_eq_self_iff]
  constructor
  · intro h hmem
    simpa using h 0 hmem
  · intro h b hb
    simpa using fun heq : b = 0 => h (heq ▸ hb)

theorem zero_not_mem_cString (bytes : Bytes) : (0 : Byte) ∉ cString bytes := by
  intro h
  simpa using List.mem_takeWhile_imp h

end Texts
