import Mathlib.Data.List.Basic

/-! # Decoding UTF-8

The decoder of the Encoding standard, one byte at a time: a byte that cannot continue a
character ends it with an error and is then read as the first byte of the next one. An
error is either fatal or written as U+FFFD. -/
namespace SurfaceLoom.Lib.Utf8

/-- Between two characters, or inside one: its bits so far, how many more bytes it needs,
and the bounds of the next one. -/
inductive State
  | start
  | inside (bits owed low high : Nat)
  deriving DecidableEq

/-- The first byte of a character; `none` is an error. -/
def first (b : UInt8) : State × List (Option Char) :=
  let n := b.toNat
  if n < 0x80 then (.start, [some (Char.ofNat n)])
  else if n < 0xC2 then (.start, [none])
  else if n < 0xE0 then (.inside (n - 0xC0) 1 0x80 0xBF, [])
  else if n < 0xF0 then
    (.inside (n - 0xE0) 2 (if n = 0xE0 then 0xA0 else 0x80) (if n = 0xED then 0x9F else 0xBF), [])
  else if n < 0xF5 then
    (.inside (n - 0xF0) 3 (if n = 0xF0 then 0x90 else 0x80) (if n = 0xF4 then 0x8F else 0xBF), [])
  else (.start, [none])

def step : State → UInt8 → State × List (Option Char)
  | .start, b => first b
  | .inside bits owed low high, b =>
    if low ≤ b.toNat ∧ b.toNat ≤ high then
      let bits := bits * 64 + b.toNat % 64
      if owed ≤ 1 then (.start, [some (Char.ofNat bits)])
      else (.inside bits (owed - 1) 0x80 0xBF, [])
    else ((first b).1, none :: (first b).2)

/-- What is read up to the end, which cuts off the character it is in. -/
def read : State → List UInt8 → List (Option Char)
  | .start, [] => []
  | .inside _ _ _ _, [] => [none]
  | s, b :: rest => (step s b).2 ++ read (step s b).1 rest

/-- The state between the bytes and what follows them. -/
def after : State → List UInt8 → State
  | s, [] => s
  | s, b :: rest => after (step s b).1 rest

/-- What is read of the bytes before that. -/
def output : State → List UInt8 → List (Option Char)
  | _, [] => []
  | s, b :: rest => (step s b).2 ++ output (step s b).1 rest

def decodeFatal (bytes : List UInt8) : Option (List Char) := (read .start bytes).mapM id

def replacement : Char := '\ufffd'

def decodeLossy (bytes : List UInt8) : List Char :=
  (read .start bytes).map fun c => c.getD replacement

def encode (chars : List Char) : List UInt8 := chars.flatMap String.utf8EncodeChar

/-! ## In two parts -/

theorem read_append (s : State) (a b : List UInt8) :
    read s (a ++ b) = output s a ++ read (after s a) b := by
  induction a generalizing s with
  | nil => rfl
  | cons x a ih => simp only [List.cons_append, read, output, after, ih, List.append_assoc]

theorem after_append (s : State) (a b : List UInt8) : after s (a ++ b) = after (after s a) b := by
  induction a generalizing s with
  | nil => rfl
  | cons x a ih => exact ih _

theorem output_append (s : State) (a b : List UInt8) :
    output s (a ++ b) = output s a ++ output (after s a) b := by
  induction a generalizing s with
  | nil => rfl
  | cons x a ih => simp only [List.cons_append, output, after, ih, List.append_assoc]

/-- A byte that can only be inside a character. -/
def isContinuation (b : UInt8) : Bool := 0x80 ≤ b.toNat && b.toNat < 0xC0

theorem step_inside {b : UInt8} (h : isContinuation b = false) (bits owed : Nat) {low high : Nat}
    (hlow : 0x80 ≤ low) (hhigh : high ≤ 0xBF) :
    step (.inside bits owed low high) b = ((first b).1, none :: (first b).2) := by
  refine if_neg fun hbounds => ?_
  simp only [isContinuation, Bool.and_eq_false_iff, decide_eq_false_iff_not] at h
  omega

/-! ## Encoded characters -/

theorem toNat_ofNat {n : Nat} (h : n < 256) : (UInt8.ofNat n).toNat = n := by
  rw [UInt8.toNat_ofNat']
  exact Nat.mod_eq_of_lt h

theorem read_cons (s : State) (b : UInt8) (rest : List UInt8) :
    read s (b :: rest) = (step s b).2 ++ read (step s b).1 rest := by
  cases s <;> rfl

/-- A byte within the bounds, of a character that needs more of them. -/
theorem read_inside {bits owed low high y : Nat} (hlow : low ≤ y + 0x80) (hhigh : y + 0x80 ≤ high)
    (hy : y < 64) (howed : 1 < owed) (rest : List UInt8) :
    read (.inside bits owed low high) (UInt8.ofNat (y + 0x80) :: rest) =
      read (.inside (bits * 64 + y) (owed - 1) 0x80 0xBF) rest := by
  have hbyte : (UInt8.ofNat (y + 0x80)).toNat = y + 0x80 := toNat_ofNat (by omega)
  have hmod : (y + 0x80) % 64 = y := by omega
  rw [read_cons, step, hbyte, if_pos ⟨hlow, hhigh⟩, hmod, if_neg (by omega)]
  rfl

/-- The last byte of a character. -/
theorem read_last {bits low high y : Nat} (hlow : low ≤ y + 0x80) (hhigh : y + 0x80 ≤ high)
    (hy : y < 64) (rest : List UInt8) :
    read (.inside bits 1 low high) (UInt8.ofNat (y + 0x80) :: rest) =
      some (Char.ofNat (bits * 64 + y)) :: read .start rest := by
  have hbyte : (UInt8.ofNat (y + 0x80)).toNat = y + 0x80 := toNat_ofNat (by omega)
  have hmod : (y + 0x80) % 64 = y := by omega
  rw [read_cons, step, hbyte, if_pos ⟨hlow, hhigh⟩, hmod, if_pos (Nat.le_refl 1)]
  rfl

theorem read_one {n : Nat} (h : n < 0x80) (rest : List UInt8) :
    read .start (UInt8.ofNat n :: rest) = some (Char.ofNat n) :: read .start rest := by
  have hbyte : (UInt8.ofNat n).toNat = n := toNat_ofNat (by omega)
  rw [read_cons, step, first, hbyte, if_pos h]
  rfl

theorem read_two {x y : Nat} (hx : 2 ≤ x) (hx' : x < 32) (hy : y < 64) (rest : List UInt8) :
    read .start (UInt8.ofNat (x + 0xC0) :: UInt8.ofNat (y + 0x80) :: rest) =
      some (Char.ofNat (x * 64 + y)) :: read .start rest := by
  have hbyte : (UInt8.ofNat (x + 0xC0)).toNat = x + 0xC0 := toNat_ofNat (by omega)
  have hbits : x + 0xC0 - 0xC0 = x := by omega
  rw [read_cons, step, first, hbyte, if_neg (by omega), if_neg (by omega), if_pos (by omega), hbits]
  exact read_last (by omega) (by omega) hy rest

theorem read_three {x y z : Nat} (hx : x < 16) (hy : y < 64) (hz : z < 64)
    (hmin : x = 0 → 32 ≤ y) (hmax : x = 13 → y < 32) (rest : List UInt8) :
    read .start (UInt8.ofNat (x + 0xE0) :: UInt8.ofNat (y + 0x80) :: UInt8.ofNat (z + 0x80) :: rest) =
      some (Char.ofNat ((x * 64 + y) * 64 + z)) :: read .start rest := by
  have hbyte : (UInt8.ofNat (x + 0xE0)).toNat = x + 0xE0 := toNat_ofNat (by omega)
  have hbits : x + 0xE0 - 0xE0 = x := by omega
  rw [read_cons, step, first, hbyte, if_neg (by omega), if_neg (by omega), if_neg (by omega),
    if_pos (by omega), hbits]
  refine (read_inside ?_ ?_ hy (by omega) _).trans (read_last (by omega) (by omega) hz rest)
  · split <;> omega
  · split <;> omega

theorem read_four {x y z w : Nat} (hx : x < 5) (hy : y < 64) (hz : z < 64) (hw : w < 64)
    (hmin : x = 0 → 16 ≤ y) (hmax : x = 4 → y < 16) (rest : List UInt8) :
    read .start (UInt8.ofNat (x + 0xF0) :: UInt8.ofNat (y + 0x80) :: UInt8.ofNat (z + 0x80) ::
      UInt8.ofNat (w + 0x80) :: rest) =
      some (Char.ofNat (((x * 64 + y) * 64 + z) * 64 + w)) :: read .start rest := by
  have hbyte : (UInt8.ofNat (x + 0xF0)).toNat = x + 0xF0 := toNat_ofNat (by omega)
  have hbits : x + 0xF0 - 0xF0 = x := by omega
  rw [read_cons, step, first, hbyte, if_neg (by omega), if_neg (by omega), if_neg (by omega),
    if_neg (by omega), if_pos (by omega), hbits]
  refine (read_inside ?_ ?_ hy (by omega) _).trans ((read_inside (by omega) (by omega) hz
    (by omega) _).trans (read_last (by omega) (by omega) hw rest))
  · split <;> omega
  · split <;> omega

theorem ofNat_val (c : Char) {n : Nat} (h : n = c.val.toNat) : Char.ofNat n = c := by
  rw [h]
  exact Char.ofNat_toNat c

theorem read_encoded (c : Char) (rest : List UInt8) :
    read .start (String.utf8EncodeChar c ++ rest) = some c :: read .start rest := by
  have hvalid : c.val.toNat < 0xD800 ∨ 0xDFFF < c.val.toNat ∧ c.val.toNat < 0x110000 := c.valid
  simp only [String.utf8EncodeChar]
  split
  · rw [List.singleton_append, read_one (by omega), ofNat_val c rfl]
  split
  · refine (read_two (by omega) (by omega) (by omega) rest).trans ?_
    rw [ofNat_val c (by omega)]
  split
  · refine (read_three (by omega) (by omega) (by omega) ?_ ?_ rest).trans ?_
    · omega
    · omega
    · rw [ofNat_val c (by omega)]
  · refine (read_four (by omega) (by omega) (by omega) (by omega) ?_ ?_ rest).trans ?_
    · omega
    · omega
    · rw [ofNat_val c (by omega)]

theorem read_encode (chars : List Char) : read .start (encode chars) = chars.map some := by
  induction chars with
  | nil => rfl
  | cons c chars ih =>
    rw [encode, List.flatMap_cons, read_encoded, List.map_cons]
    exact congrArg _ ih

/-! ## Decoded bytes -/

theorem val_ofNat {n : Nat} (h : n < 0xD800 ∨ 0xDFFF < n ∧ n < 0x110000) :
    (Char.ofNat n).val.toNat = n := by
  unfold Char.ofNat
  rw [dif_pos h]
  rfl

theorem ofNat_byte (b : UInt8) {n : Nat} (h : n = b.toNat) : UInt8.ofNat n = b := by
  rw [h]
  exact UInt8.ofNat_toNat

theorem encode_two {x y : Nat} (hx : 2 ≤ x) (hx' : x < 32) (hy : y < 64) :
    String.utf8EncodeChar (Char.ofNat (x * 64 + y)) =
      [UInt8.ofNat (x + 0xC0), UInt8.ofNat (y + 0x80)] := by
  have hval : (Char.ofNat (x * 64 + y)).val.toNat = x * 64 + y := val_ofNat (by omega)
  have hhigh : (x * 64 + y) / 64 % 0x20 = x := by omega
  have hlow : (x * 64 + y) % 0x40 = y := by omega
  simp only [String.utf8EncodeChar, hval, hhigh, hlow]
  rw [if_neg (by omega), if_pos (by omega)]

theorem encode_three {x y z : Nat} (hx : x < 16) (hy : y < 64) (hz : z < 64)
    (hmin : x = 0 → 32 ≤ y) (hmax : x = 13 → y < 32) :
    String.utf8EncodeChar (Char.ofNat ((x * 64 + y) * 64 + z)) =
      [UInt8.ofNat (x + 0xE0), UInt8.ofNat (y + 0x80), UInt8.ofNat (z + 0x80)] := by
  have hval : (Char.ofNat ((x * 64 + y) * 64 + z)).val.toNat = (x * 64 + y) * 64 + z :=
    val_ofNat (by omega)
  have hhigh : ((x * 64 + y) * 64 + z) / 4096 % 0x10 = x := by omega
  have hmid : ((x * 64 + y) * 64 + z) / 64 % 0x40 = y := by omega
  have hlow : ((x * 64 + y) * 64 + z) % 0x40 = z := by omega
  simp only [String.utf8EncodeChar, hval, hhigh, hmid, hlow]
  rw [if_neg (by omega), if_neg (by omega), if_pos (by omega)]

theorem encode_four {x y z w : Nat} (hx : x < 5) (hy : y < 64) (hz : z < 64) (hw : w < 64)
    (hmin : x = 0 → 16 ≤ y) (hmax : x = 4 → y < 16) :
    String.utf8EncodeChar (Char.ofNat (((x * 64 + y) * 64 + z) * 64 + w)) =
      [UInt8.ofNat (x + 0xF0), UInt8.ofNat (y + 0x80), UInt8.ofNat (z + 0x80),
        UInt8.ofNat (w + 0x80)] := by
  have hval : (Char.ofNat (((x * 64 + y) * 64 + z) * 64 + w)).val.toNat =
      ((x * 64 + y) * 64 + z) * 64 + w := val_ofNat (by omega)
  have hhigh : (((x * 64 + y) * 64 + z) * 64 + w) / 262144 % 0x08 = x := by omega
  have hsecond : (((x * 64 + y) * 64 + z) * 64 + w) / 4096 % 0x40 = y := by omega
  have hmid : (((x * 64 + y) * 64 + z) * 64 + w) / 64 % 0x40 = z := by omega
  have hlow : (((x * 64 + y) * 64 + z) * 64 + w) % 0x40 = w := by omega
  simp only [String.utf8EncodeChar, hval, hhigh, hsecond, hmid, hlow]
  rw [if_neg (by omega), if_neg (by omega), if_neg (by omega)]

/-- Inside a character without an error there is a byte within the bounds. -/
theorem read_inside_ok {bits owed low high : Nat} {l : List UInt8} {chars : List Char}
    (h : read (.inside bits owed low high) l = chars.map some) (howed : 1 < owed) :
    ∃ b rest, l = b :: rest ∧ low ≤ b.toNat ∧ b.toNat ≤ high ∧
      read (.inside (bits * 64 + b.toNat % 64) (owed - 1) 0x80 0xBF) rest = chars.map some := by
  cases l with
  | nil =>
    rw [read] at h
    cases chars <;> simp at h
  | cons b rest =>
    rw [read_cons, step] at h
    split at h
    · rename_i hbounds
      rw [if_neg (by omega)] at h
      exact ⟨b, rest, rfl, hbounds.1, hbounds.2, h⟩
    · cases chars <;> simp at h

theorem read_last_ok {bits low high : Nat} {l : List UInt8} {chars : List Char}
    (h : read (.inside bits 1 low high) l = chars.map some) :
    ∃ b rest cs, l = b :: rest ∧ low ≤ b.toNat ∧ b.toNat ≤ high ∧
      chars = Char.ofNat (bits * 64 + b.toNat % 64) :: cs ∧ read .start rest = cs.map some := by
  cases l with
  | nil =>
    rw [read] at h
    cases chars <;> simp at h
  | cons b rest =>
    rw [read_cons, step] at h
    split at h
    · rename_i hbounds
      rw [if_pos (Nat.le_refl 1)] at h
      cases chars with
      | nil => simp at h
      | cons c cs =>
        simp only [List.singleton_append, List.map_cons, List.cons.injEq, Option.some.injEq] at h
        exact ⟨b, rest, cs, rfl, hbounds.1, hbounds.2, by rw [h.1], h.2⟩
    · cases chars <;> simp at h

theorem read_start_ok {b : UInt8} {l : List UInt8} {chars : List Char}
    (h : read .start (b :: l) = chars.map some) :
    ∃ c cs rest, chars = c :: cs ∧ b :: l = String.utf8EncodeChar c ++ rest ∧
      read .start rest = cs.map some := by
  rw [read_cons, step, first] at h
  have hb : b.toNat < 256 := b.toNat_lt
  split at h
  · rename_i hlt
    cases chars with
    | nil => simp at h
    | cons c cs =>
      simp only [List.singleton_append, List.map_cons, List.cons.injEq, Option.some.injEq] at h
      refine ⟨c, cs, l, rfl, ?_, h.2⟩
      have hval : c.val.toNat = b.toNat := by rw [← h.1, val_ofNat (by omega)]
      simp only [String.utf8EncodeChar, hval]
      rw [if_pos (by omega), ofNat_byte b rfl]
      rfl
  split at h
  · cases chars <;> simp at h
  split at h
  · obtain ⟨b₁, rest, cs, rfl, hlow, hhigh, rfl, hrest⟩ := read_last_ok h
    refine ⟨_, cs, rest, rfl, ?_, hrest⟩
    rw [encode_two (by omega) (by omega) (by omega), ofNat_byte b (by omega),
      ofNat_byte b₁ (by omega)]
    rfl
  split at h
  · obtain ⟨b₁, l₁, rfl, hlow, hhigh, h⟩ := read_inside_ok h (by omega)
    obtain ⟨b₂, rest, cs, rfl, hlow₂, hhigh₂, rfl, hrest⟩ := read_last_ok h
    refine ⟨_, cs, rest, rfl, ?_, hrest⟩
    have hb₁ : 0x80 ≤ b₁.toNat ∧ b₁.toNat ≤ 0xBF := by
      split at hlow <;> split at hhigh <;> omega
    rw [encode_three (by omega) (by omega) (by omega), ofNat_byte b (by omega),
      ofNat_byte b₁ (by omega), ofNat_byte b₂ (by omega)]
    · rfl
    · intro hzero
      split at hlow <;> omega
    · intro hsurrogate
      split at hhigh <;> omega
  split at h
  · obtain ⟨b₁, l₁, rfl, hlow, hhigh, h⟩ := read_inside_ok h (by omega)
    obtain ⟨b₂, l₂, rfl, hlow₂, hhigh₂, h⟩ := read_inside_ok h (by omega)
    obtain ⟨b₃, rest, cs, rfl, hlow₃, hhigh₃, rfl, hrest⟩ := read_last_ok h
    refine ⟨_, cs, rest, rfl, ?_, hrest⟩
    have hb₁ : 0x80 ≤ b₁.toNat ∧ b₁.toNat ≤ 0xBF := by
      split at hlow <;> split at hhigh <;> omega
    rw [encode_four (by omega) (by omega) (by omega) (by omega), ofNat_byte b (by omega),
      ofNat_byte b₁ (by omega), ofNat_byte b₂ (by omega), ofNat_byte b₃ (by omega)]
    · rfl
    · intro hzero
      split at hlow <;> omega
    · intro hlast
      split at hhigh <;> omega
  · cases chars <;> simp at h

theorem encode_of_read {bytes : List UInt8} {chars : List Char}
    (h : read .start bytes = chars.map some) : encode chars = bytes := by
  induction chars generalizing bytes with
  | nil =>
    cases bytes with
    | nil => rfl
    | cons b l =>
      obtain ⟨c, cs, rest, heq, -⟩ := read_start_ok h
      cases heq
  | cons c chars ih =>
    cases bytes with
    | nil => cases h
    | cons b l =>
      obtain ⟨c', cs, rest, heq, hbytes, hrest⟩ := read_start_ok h
      obtain ⟨rfl, rfl⟩ := List.cons.inj heq
      rw [hbytes, ← ih hrest]
      rfl

theorem mapM_id_eq_some {l : List (Option Char)} {chars : List Char} :
    l.mapM id = some chars ↔ l = chars.map some := by
  induction l generalizing chars with
  | nil => cases chars <;> simp
  | cons a l ih =>
    simp only [List.mapM_cons, Option.bind_eq_bind, Option.bind_eq_some_iff, id_eq, Option.pure_def,
      Option.some.injEq]
    constructor
    · intro h
      obtain ⟨c, rfl, cs, hcs, rfl⟩ := h
      rw [ih.mp hcs]
      rfl
    · intro h
      cases chars with
      | nil => cases h
      | cons c cs =>
        obtain ⟨rfl, hl⟩ := List.cons.inj h
        exact ⟨c, rfl, cs, ih.mpr hl, rfl⟩

/-- Bytes decode to the text they encode, and to nothing else. -/
theorem decodeFatal_eq_some_iff {bytes : List UInt8} {chars : List Char} :
    decodeFatal bytes = some chars ↔ encode chars = bytes := by
  rw [decodeFatal, mapM_id_eq_some]
  exact ⟨encode_of_read, fun h => h ▸ read_encode chars⟩

end SurfaceLoom.Lib.Utf8
