import DasiModel.Texts

/-!
# Which strings survive the way to C and back

Encoding with `surrogateescape` sends the surrogates U+DC80 to U+DCFF to single
bytes. Decoding makes such a surrogate of every byte that starts no well-formed
character, so a string comes back unless escaped bytes in it spell a character
together. C adds that nothing behind a NUL is seen.
-/

namespace Escapes
open Texts

/-- The surrogate that stands for a byte. -/
def escape (b : Byte) : CodePoint := Fin.ofNat 0x110000 (0xDC00 + b.val)

def IsEscape (c : CodePoint) : Prop := 0xDC80 ≤ c.val ∧ c.val ≤ 0xDCFF

@[simp] theorem escape_val (b : Byte) : (escape b).val = 0xDC00 + b.val := by
  have hb := b.isLt
  simp only [escape, Fin.ofNat_eq_cast, Fin.val_natCast]
  omega

/-- The bytes of one character, as a decoder tells them apart. -/
inductive Spells : Bytes → CodePoint → Prop where
  | one {a : Byte} {c : CodePoint} : a.val < 0x80 → c.val = a.val → Spells [a] c
  | two {a b : Byte} {c : CodePoint} : 0xC2 ≤ a.val → a.val ≤ 0xDF → isTail b = true →
      c.val = (a.val - 0xC0) * 64 + (b.val - 0x80) → Spells [a, b] c
  | three {a b d : Byte} {c : CodePoint} : 0xE0 ≤ a.val → a.val ≤ 0xEF → isTail b = true →
      isTail d = true → 0x800 ≤ c.val → ¬ (0xD800 ≤ c.val ∧ c.val ≤ 0xDFFF) →
      c.val = (a.val - 0xE0) * 4096 + (b.val - 0x80) * 64 + (d.val - 0x80) → Spells [a, b, d] c
  | four {a b d e : Byte} {c : CodePoint} : 0xF0 ≤ a.val → a.val ≤ 0xF4 → isTail b = true →
      isTail d = true → isTail e = true → 0x10000 ≤ c.val →
      c.val = (a.val - 0xF0) * 262144 + (b.val - 0x80) * 4096 + (d.val - 0x80) * 64 +
        (e.val - 0x80) → Spells [a, b, d, e] c

theorem isTail_iff (b : Byte) : isTail b = true ↔ 0x80 ≤ b.val ∧ b.val ≤ 0xBF := by
  simp only [isTail, Bool.and_eq_true, decide_eq_true_eq]

theorem byte_val {n : Nat} (small : n < 256) : (Fin.ofNat 256 n).val = n :=
  Nat.mod_eq_of_lt small

theorem codePoint_val {n : Nat} (small : n < 0x110000) : (Fin.ofNat 0x110000 n).val = n :=
  Nat.mod_eq_of_lt small

/-- Encoding spells every code point but the escapes. -/
theorem spells_of_encodePoint {c : CodePoint} {bytes : Bytes} (h : encodePoint c = some bytes)
    (own : ¬ IsEscape c) : Spells bytes c := by
  have hc := c.isLt
  simp only [encodePoint] at h
  simp only [IsEscape] at own
  split_ifs at h with h1 h2 h3 h4
  · cases h
    have a := byte_val (show c.val < 256 by omega)
    exact .one (by omega) (by omega)
  · cases h
    have a := byte_val (show 0xC0 + c.val / 64 < 256 by omega)
    have b := byte_val (show 0x80 + c.val % 64 < 256 by omega)
    exact .two (by omega) (by omega) ((isTail_iff _).mpr (by omega)) (by omega)
  · cases h
    have a := byte_val (show 0xE0 + c.val / 4096 < 256 by omega)
    have b := byte_val (show 0x80 + c.val / 64 % 64 < 256 by omega)
    have d := byte_val (show 0x80 + c.val % 64 < 256 by omega)
    exact .three (by omega) (by omega) ((isTail_iff _).mpr (by omega))
      ((isTail_iff _).mpr (by omega)) (by omega) (by omega) (by omega)
  · cases h
    have a := byte_val (show 0xF0 + c.val / 262144 < 256 by omega)
    have b := byte_val (show 0x80 + c.val / 4096 % 64 < 256 by omega)
    have d := byte_val (show 0x80 + c.val / 64 % 64 < 256 by omega)
    have e := byte_val (show 0x80 + c.val % 64 < 256 by omega)
    exact .four (by omega) (by omega) ((isTail_iff _).mpr (by omega))
      ((isTail_iff _).mpr (by omega)) ((isTail_iff _).mpr (by omega)) (by omega) (by omega)

/-- The bytes that spell a character are its encoding. -/
theorem encodePoint_of_spells {c : CodePoint} {bytes : Bytes} (h : Spells bytes c) :
    encodePoint c = some bytes ∧ ¬ IsEscape c := by
  have byte_eq : ∀ {b : Byte} {n : Nat}, n = b.val → Fin.ofNat 256 n = b := by
    rintro b n rfl
    exact Fin.ext (byte_val b.isLt)
  cases h with
  | one low value =>
    rename_i a
    refine ⟨?_, fun escaped => by unfold IsEscape at escaped; omega⟩
    simp only [encodePoint]
    rw [if_pos (by omega), byte_eq value]
  | two low high tail value =>
    rename_i a b
    rw [isTail_iff] at tail
    refine ⟨?_, fun escaped => by unfold IsEscape at escaped; omega⟩
    simp only [encodePoint]
    rw [if_neg (by omega), if_pos (by omega), byte_eq (b := a) (by omega),
      byte_eq (b := b) (by omega)]
  | three low high tail tail' least own value =>
    rename_i a b d
    rw [isTail_iff] at tail tail'
    refine ⟨?_, fun escaped => by unfold IsEscape at escaped; omega⟩
    simp only [encodePoint]
    rw [if_neg (by omega), if_neg (by omega), if_neg (by omega), if_neg (by omega),
      if_pos (by omega), byte_eq (b := a) (by omega), byte_eq (b := b) (by omega),
      byte_eq (b := d) (by omega)]
  | four low high tail tail' tail'' least value =>
    rename_i a b d e
    rw [isTail_iff] at tail tail' tail''
    refine ⟨?_, fun escaped => by unfold IsEscape at escaped; omega⟩
    simp only [encodePoint]
    rw [if_neg (by omega), if_neg (by omega), if_neg (by omega), if_neg (by omega),
      if_neg (by omega), byte_eq (b := a) (by omega), byte_eq (b := b) (by omega),
      byte_eq (b := d) (by omega), byte_eq (b := e) (by omega)]

/-- The decoder takes a character off the front if its bytes are there. -/
theorem decodePoint_of_spells {front : Bytes} {c : CodePoint} (spelled : Spells front c)
    (rest : Bytes) : decodePoint (front ++ rest) = some (c, rest) := by
  have point_eq : ∀ {n : Nat}, c.val = n → Fin.ofNat 0x110000 n = c := by
    rintro n rfl
    exact Fin.ext (codePoint_val c.isLt)
  cases spelled with
  | one low value =>
    simp only [List.cons_append, List.nil_append, decodePoint]
    rw [if_pos low, point_eq value]
  | two low high tail value =>
    simp only [List.cons_append, List.nil_append, decodePoint]
    rw [if_neg (by omega), if_pos ⟨low, high, tail⟩, point_eq value]
  | three low high tail tail' least own value =>
    simp only [List.cons_append, List.nil_append, decodePoint]
    rw [if_neg (by omega), if_neg (by omega), if_pos (by simp only [← value]; exact
      ⟨low, high, tail, tail', least, own⟩), point_eq value]
  | four low high tail tail' tail'' least value =>
    have hc := c.isLt
    simp only [List.cons_append, List.nil_append, decodePoint]
    rw [if_neg (by omega), if_neg (by omega), if_neg (by omega), if_pos (by
      simp only [← value]; exact ⟨low, high, tail, tail', tail'', least, hc⟩), point_eq value]

/-- What the decoder takes off the front is spelled there. -/
theorem spells_of_decodePoint {bytes : Bytes} {c : CodePoint} {rest : Bytes}
    (h : decodePoint bytes = some (c, rest)) : ∃ front, Spells front c ∧ bytes = front ++ rest := by
  match bytes with
  | [] => cases h
  | a :: tail =>
    have ha := a.isLt
    simp only [decodePoint] at h
    split_ifs at h with ascii
    · obtain ⟨point, rfl⟩ := Prod.mk.inj (Option.some.inj h)
      refine ⟨[a], .one ascii ?_, rfl⟩
      rw [← point]
      exact codePoint_val (by omega)
    · match tail with
      | [] => cases h
      | b :: tail =>
        have hb := b.isLt
        simp only at h
        split_ifs at h with two
        · obtain ⟨point, rfl⟩ := Prod.mk.inj (Option.some.inj h)
          obtain ⟨low, high, tail_b⟩ := two
          refine ⟨[a, b], .two low high tail_b ?_, rfl⟩
          rw [← point]
          exact codePoint_val (by omega)
        · match tail with
          | [] => cases h
          | d :: tail =>
            have hd := d.isLt
            simp only at h
            split_ifs at h with three
            · obtain ⟨point, rfl⟩ := Prod.mk.inj (Option.some.inj h)
              obtain ⟨low, high, tail_b, tail_d, least, own⟩ := three
              have value : c.val = (a.val - 0xE0) * 4096 + (b.val - 0x80) * 64 +
                  (d.val - 0x80) := by
                rw [← point]
                exact codePoint_val (by omega)
              exact ⟨[a, b, d], .three low high tail_b tail_d (by omega) (by omega) value, rfl⟩
            · match tail with
              | [] => cases h
              | e :: tail =>
                simp only at h
                split_ifs at h with four
                obtain ⟨point, rfl⟩ := Prod.mk.inj (Option.some.inj h)
                obtain ⟨low, high, tail_b, tail_d, tail_e, least, most⟩ := four
                have value : c.val = (a.val - 0xF0) * 262144 + (b.val - 0x80) * 4096 +
                    (d.val - 0x80) * 64 + (e.val - 0x80) := by
                  rw [← point]
                  exact codePoint_val most
                exact ⟨[a, b, d, e], .four low high tail_b tail_d tail_e (by omega) value, rfl⟩

section Decoding

/-- A lead byte, and continuation bytes behind it. -/
theorem Spells.shape {front : Bytes} {c : CodePoint} (spelled : Spells front c) :
    ∃ a tails, front = a :: tails ∧ (∀ b ∈ tails, 0x80 ≤ b.val ∧ b.val ≤ 0xBF) ∧
      (a.val < 0x80 ∧ c.val < 0x80 ∨ 0xC2 ≤ a.val ∧ 0x80 ≤ c.val) := by
  cases spelled with
  | one low value => exact ⟨_, [], rfl, by simp, by omega⟩
  | two low high tail value =>
    rw [isTail_iff] at tail
    exact ⟨_, _, rfl, by simpa using tail, by omega⟩
  | three low high tail tail' least own value =>
    rw [isTail_iff] at tail tail'
    exact ⟨_, _, rfl, by simpa using ⟨tail, tail'⟩, by omega⟩
  | four low high tail tail' tail'' least value =>
    rw [isTail_iff] at tail tail' tail''
    exact ⟨_, _, rfl, by simpa using ⟨tail, tail', tail''⟩, by omega⟩

theorem Spells.ne_nil {front : Bytes} {c : CodePoint} (spelled : Spells front c) : front ≠ [] := by
  obtain ⟨a, tails, rfl, -⟩ := spelled.shape
  exact List.cons_ne_nil a tails

theorem Spells.high {front : Bytes} {c : CodePoint} (spelled : Spells front c)
    (beyond : 0x80 ≤ c.val) : ∀ b ∈ front, 0x80 ≤ b.val := by
  obtain ⟨a, tails, rfl, continuations, lead⟩ := spelled.shape
  intro b hb
  rcases List.mem_cons.mp hb with rfl | hb
  · omega
  · exact (continuations b hb).1

/-- Fuel for every byte is enough, and more changes nothing. -/
theorem decodeWithin_eq {n : Nat} {bytes : Bytes} (enough : bytes.length ≤ n) :
    decodeWithin n bytes = decode bytes := by
  have stable : ∀ n m bytes, bytes.length ≤ n → bytes.length ≤ m →
      decodeWithin n bytes = decodeWithin m bytes := by
    intro n
    induction n with
    | zero =>
      intro m bytes hn _
      obtain rfl := List.length_eq_zero_iff.mp (Nat.le_zero.mp hn)
      cases m with
      | zero => rfl
      | succ m => rfl
    | succ n ih =>
      intro m bytes hn hm
      cases bytes with
      | nil =>
        cases m with
        | zero => rfl
        | succ m => rfl
      | cons b rest =>
        cases m with
        | zero => exact absurd hm (Nat.not_succ_le_zero _)
        | succ m =>
          simp only [List.length_cons] at hn hm
          simp only [decodeWithin]
          cases front : decodePoint (b :: rest) with
          | none =>
            simp only
            rw [ih m rest (by omega) (by omega)]
          | some taken =>
            obtain ⟨c, rest'⟩ := taken
            obtain ⟨own, spelled, cut⟩ := spells_of_decodePoint front
            have shorter := congrArg List.length cut
            have positive := List.length_pos_iff.mpr spelled.ne_nil
            simp only [List.length_cons, List.length_append] at shorter
            simp only
            rw [ih m rest' (by omega) (by omega)]
  exact stable n bytes.length bytes enough (Nat.le_refl _)

theorem decode_of_spells {front : Bytes} {c : CodePoint} (spelled : Spells front c)
    (rest : Bytes) : decode (front ++ rest) = c :: decode rest := by
  obtain ⟨a, tails, rfl, -⟩ := spelled.shape
  have taken := decodePoint_of_spells spelled rest
  simp only [List.cons_append] at taken ⊢
  simp only [decode, List.length_cons, decodeWithin, taken]
  rw [decodeWithin_eq (by simp), decode]

theorem decode_of_none {b : Byte} {rest : Bytes} (none : decodePoint (b :: rest) = none) :
    decode (b :: rest) = escape b :: decode rest := by
  simp only [decode, List.length_cons, decodeWithin, none]
  rfl

end Decoding

section Encoding

theorem isEscape_escape {b : Byte} (high : 0x80 ≤ b.val) : IsEscape (escape b) := by
  have hb := b.isLt
  simp only [IsEscape, escape_val]
  omega

theorem encodePoint_escape {b : Byte} (high : 0x80 ≤ b.val) : encodePoint (escape b) = some [b] := by
  have hb := b.isLt
  have same : Fin.ofNat 256 (0xDC00 + b.val - 0xDC00) = b := by
    rw [Nat.add_sub_cancel_left]
    exact Fin.ext (byte_val hb)
  simp only [encodePoint, escape_val]
  rw [if_neg (by omega), if_neg (by omega), if_pos (by omega), same]

theorem encodePoint_ne_nil {c : CodePoint} : encodePoint c ≠ some [] := by
  intro h
  simp only [encodePoint] at h
  split_ifs at h <;> exact List.cons_ne_nil _ _ (Option.some.inj h)

theorem eq_escape_of_isEscape {c : CodePoint} (escaped : IsEscape c) :
    ∃ b : Byte, 0x80 ≤ b.val ∧ c = escape b := by
  simp only [IsEscape] at escaped
  have value := byte_val (show c.val - 0xDC00 < 256 by omega)
  refine ⟨Fin.ofNat 256 (c.val - 0xDC00), by omega, Fin.ext ?_⟩
  rw [escape_val, value]
  omega

/-- A code point whose encoding starts with a continuation byte is the escape of it. -/
theorem eq_escape_of_encodePoint {c : CodePoint} {b : Byte} {tail : Bytes}
    (h : encodePoint c = some (b :: tail)) (continuation : 0x80 ≤ b.val ∧ b.val ≤ 0xBF) :
    c = escape b ∧ tail = [] := by
  by_cases escaped : IsEscape c
  · obtain ⟨a, high, rfl⟩ := eq_escape_of_isEscape escaped
    rw [encodePoint_escape high] at h
    obtain ⟨rfl, rfl⟩ := List.cons.inj (Option.some.inj h)
    exact ⟨rfl, rfl⟩
  · obtain ⟨a, tails, cut, -, lead⟩ := (spells_of_encodePoint h escaped).shape
    obtain ⟨rfl, rfl⟩ := List.cons.inj cut
    omega

theorem ffiEncode_cons_eq_some_iff {c : CodePoint} {rest : PyStr} {bytes : Bytes} :
    ffiEncode (c :: rest) = some bytes ↔ ∃ head tail, encodePoint c = some head ∧
      ffiEncode rest = some tail ∧ head ++ tail = bytes := by
  simp only [ffiEncode, Option.bind_eq_bind, Option.bind_eq_some_iff, Option.pure_def,
    Option.some.injEq]
  constructor
  · rintro ⟨head, hhead, tail, htail, same⟩
    exact ⟨head, tail, hhead, htail, same⟩
  · rintro ⟨head, tail, hhead, htail, same⟩
    exact ⟨head, hhead, tail, htail, same⟩

/-- Continuation bytes at the front of an encoding come from escapes. -/
theorem escapes_of_continuations {tails : Bytes} {text : PyStr} {bytes : Bytes}
    (encoded : ffiEncode text = some bytes)
    (continuations : ∀ b ∈ tails, 0x80 ≤ b.val ∧ b.val ≤ 0xBF) (front : tails <+: bytes) :
    tails.map escape <+: text := by
  induction tails generalizing text bytes with
  | nil => exact List.nil_prefix
  | cons b rest ih =>
    obtain ⟨more, rfl⟩ := front
    cases text with
    | nil => cases encoded
    | cons c text =>
      obtain ⟨head, tail, hhead, htail, same⟩ := ffiEncode_cons_eq_some_iff.mp encoded
      obtain ⟨here, later⟩ := List.forall_mem_cons.mp continuations
      cases head with
      | nil => exact absurd hhead encodePoint_ne_nil
      | cons a head =>
        obtain ⟨rfl, split⟩ := List.cons.inj same
        obtain ⟨rfl, rfl⟩ := eq_escape_of_encodePoint hhead here
        have rest_front : rest.map escape <+: text := ih htail later ⟨more, split.symm⟩
        exact List.cons_prefix_cons.mpr ⟨rfl, rest_front⟩

theorem ffiEncode_append (left right : PyStr) : ffiEncode (left ++ right) =
    (ffiEncode left).bind (fun head => (ffiEncode right).map (head ++ ·)) := by
  induction left with
  | nil => simp [ffiEncode]
  | cons c rest ih =>
    simp only [List.cons_append, ffiEncode, ih]
    cases encodePoint c with
    | none => rfl
    | some head =>
      cases ffiEncode rest with
      | none => rfl
      | some tail =>
        cases ffiEncode right with
        | none => rfl
        | some more => simp

/-- The escapes of high bytes are encoded as these bytes. -/
theorem ffiEncode_escapes {front : Bytes} (high : ∀ b ∈ front, 0x80 ≤ b.val) :
    ffiEncode (front.map escape) = some front := by
  induction front with
  | nil => rfl
  | cons b rest ih =>
    obtain ⟨here, later⟩ := List.forall_mem_cons.mp high
    exact ffiEncode_cons_eq_some_iff.mpr ⟨[b], rest, encodePoint_escape here, ih later, rfl⟩

end Encoding

/-- The escaped form of a character beyond ASCII. -/
def EscapesOf (c : CodePoint) (text : PyStr) : Prop :=
  0x80 ≤ c.val ∧ ∃ bytes, Spells bytes c ∧ text = bytes.map escape

/-- No escaped bytes in the string spell a character. -/
def Unspelled (text : PyStr) : Prop := ∀ c part, EscapesOf c part → ¬ part <:+: text

/-- Neither a NUL nor escaped bytes that spell a character. -/
structure Plain (text : PyStr) : Prop where
  nulFree : (0 : CodePoint) ∉ text
  unspelled : Unspelled text

section Faithful

theorem unspelled_nil : Unspelled [] := by
  rintro c part ⟨-, front, spelled, rfl⟩ inside
  exact spelled.ne_nil (List.map_eq_nil_iff.mp (List.infix_nil.mp inside))

theorem unspelled_cons_iff (c : CodePoint) (rest : PyStr) : Unspelled (c :: rest) ↔
    (∀ d part, EscapesOf d part → ¬ part <+: c :: rest) ∧ Unspelled rest := by
  simp only [Unspelled, List.infix_cons_iff, not_or]
  constructor
  · intro none
    exact ⟨fun d part h => (none d part h).1, fun d part h => (none d part h).2⟩
  · intro none d part h
    exact ⟨none.1 d part h, none.2 d part h⟩

/-- Escaped bytes of a character start with an escape. -/
theorem starts_with_escape {c d : CodePoint} {part rest : PyStr} (escapes : EscapesOf d part)
    (front : part <+: c :: rest) : IsEscape c := by
  obtain ⟨beyond, bytes, spelled, rfl⟩ := escapes
  obtain ⟨a, tails, rfl, -⟩ := spelled.shape
  obtain ⟨rfl, -⟩ := List.cons_prefix_cons.mp front
  exact isEscape_escape (spelled.high beyond a List.mem_cons_self)

/-- The decoder takes a character off exactly where its escaped bytes stand. -/
theorem prefix_iff_decodePoint {b : Byte} (high : 0x80 ≤ b.val) {rest : PyStr} {tail : Bytes}
    (encoded : ffiEncode rest = some tail) :
    (∃ d part, EscapesOf d part ∧ part <+: escape b :: rest) ↔ (decodePoint (b :: tail)).isSome := by
  have whole : ffiEncode (escape b :: rest) = some (b :: tail) :=
    ffiEncode_cons_eq_some_iff.mpr ⟨[b], tail, encodePoint_escape high, encoded, rfl⟩
  constructor
  · rintro ⟨d, part, ⟨beyond, front, spelled, rfl⟩, more, split⟩
    rw [← split, ffiEncode_append, ffiEncode_escapes (spelled.high beyond), Option.bind_some,
      Option.map_eq_some_iff] at whole
    obtain ⟨after, -, same⟩ := whole
    rw [← same, decodePoint_of_spells spelled]
    rfl
  · intro found
    obtain ⟨⟨d, after⟩, taken⟩ := Option.isSome_iff_exists.mp found
    obtain ⟨front, spelled, split⟩ := spells_of_decodePoint taken
    obtain ⟨a, tails, rfl, continuations, lead⟩ := spelled.shape
    obtain ⟨rfl, rfl⟩ := List.cons.inj split
    have escapes : tails.map escape <+: rest :=
      escapes_of_continuations encoded continuations (List.prefix_append _ _)
    exact ⟨d, _, ⟨by omega, _, spelled, rfl⟩, List.cons_prefix_cons.mpr ⟨rfl, escapes⟩⟩

/-- Decoding gives the string back exactly if no escaped bytes spell a character. The
induction takes one code point off; an escape is lost if its byte starts a character. -/
theorem decode_eq_iff {text : PyStr} {bytes : Bytes} (encoded : ffiEncode text = some bytes) :
    decode bytes = text ↔ Unspelled text := by
  induction text generalizing bytes with
  | nil =>
    cases encoded
    exact iff_of_true rfl unspelled_nil
  | cons c rest ih =>
    obtain ⟨head, tail, hhead, htail, rfl⟩ := ffiEncode_cons_eq_some_iff.mp encoded
    rw [unspelled_cons_iff, ← ih htail]
    by_cases escaped : IsEscape c
    · obtain ⟨b, high, rfl⟩ := eq_escape_of_isEscape escaped
      rw [encodePoint_escape high] at hhead
      cases hhead
      have spelled := prefix_iff_decodePoint high htail
      cases taken : decodePoint (b :: tail) with
      | none =>
        rw [taken] at spelled
        have free : ∀ d part, EscapesOf d part → ¬ part <+: escape b :: rest := by
          intro d part h inside
          cases spelled.mp ⟨d, part, h, inside⟩
        simp only [List.cons_append, List.nil_append, decode_of_none taken, List.cons.injEq,
          true_and]
        exact ⟨fun same => ⟨free, same⟩, And.right⟩
      | some next =>
        obtain ⟨d, after⟩ := next
        obtain ⟨front, spells, split⟩ := spells_of_decodePoint taken
        rw [taken] at spelled
        obtain ⟨d', part, escapes, inside⟩ := spelled.mpr rfl
        refine iff_of_false ?_ (fun free => free.1 d' part escapes inside)
        intro same
        simp only [List.cons_append, List.nil_append, split, decode_of_spells spells] at same
        obtain ⟨rfl, -⟩ := List.cons.inj same
        exact (encodePoint_of_spells spells).2 escaped
    · have spelled := spells_of_encodePoint hhead escaped
      have free : ∀ d part, EscapesOf d part → ¬ part <+: c :: rest :=
        fun d part h inside => escaped (starts_with_escape h inside)
      rw [decode_of_spells spelled, List.cons.injEq]
      exact ⟨fun same => ⟨free, same.2⟩, fun same => ⟨rfl, same.2⟩⟩

/-- Without NUL bytes there is no NUL in the decoded string. -/
theorem zero_not_mem_decode {bytes : Bytes} (free : (0 : Byte) ∉ bytes) :
    (0 : CodePoint) ∉ decode bytes := by
  induction size : bytes.length using Nat.strongRecOn generalizing bytes with
  | ind n ih =>
    cases bytes with
    | nil => exact List.not_mem_nil
    | cons b rest =>
      cases taken : decodePoint (b :: rest) with
      | none =>
        rw [decode_of_none taken, List.mem_cons, not_or]
        constructor
        · intro zero
          have value := congrArg Fin.val zero
          rw [escape_val] at value
          exact absurd value (by omega)
        · exact ih rest.length (by simp at size; omega) (fun h => free (List.mem_cons_of_mem b h)) rfl
      | some next =>
        obtain ⟨c, after⟩ := next
        obtain ⟨front, spelled, split⟩ := spells_of_decodePoint taken
        have shorter := congrArg List.length split
        have positive := List.length_pos_iff.mpr spelled.ne_nil
        simp only [List.length_append] at shorter
        rw [split] at free ⊢
        rw [decode_of_spells spelled, List.mem_cons, not_or]
        constructor
        · rintro rfl
          have encoded := (encodePoint_of_spells spelled).1
          exact free (List.mem_append_left _ ((zero_mem_encodePoint encoded).mpr rfl))
        · exact ih after.length (by omega) (fun h => free (List.mem_append_right _ h)) rfl

/-- What Python gets back from C is the string it gave, exactly for the plain strings. -/
theorem ffiDecode_eq_iff {text : PyStr} {bytes : Bytes} (encoded : ffiEncode text = some bytes) :
    ffiDecode bytes = text ↔ Plain text := by
  constructor
  · intro same
    have nulFree : (0 : CodePoint) ∉ text := by
      rw [← same]
      exact zero_not_mem_decode (zero_not_mem_cString bytes)
    have whole : cString bytes = bytes :=
      (cString_eq_self_iff bytes).mpr (fun h => nulFree ((zero_mem_ffiEncode encoded).mp h))
    rw [ffiDecode, whole] at same
    exact ⟨nulFree, (decode_eq_iff encoded).mp same⟩
  · rintro ⟨nulFree, unspelled⟩
    have whole : cString bytes = bytes :=
      (cString_eq_self_iff bytes).mpr (fun h => nulFree ((zero_mem_ffiEncode encoded).mp h))
    rw [ffiDecode, whole]
    exact (decode_eq_iff encoded).mpr unspelled

end Faithful

end Escapes
