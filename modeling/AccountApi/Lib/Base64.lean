import Mathlib.Algebra.Group.Nat.Defs
import Mathlib.Data.List.Basic
import Mathlib.Data.List.TakeWhile
import Mathlib.Data.Nat.Notation
import Mathlib.Tactic.Common

/-!
# Base64

`encode` writes bytes in the URL alphabet without padding, as `toString('base64url')` does; `decode`
reads them as `Buffer.from(s, 'base64url')`: both alphabets, up to the first `=`, any other character
skipped, and bits that make no byte dropped. A byte is eight bits and a character six, the most significant first.

* `decode_encode`: what was encoded is decoded.
* `encode_alphabet`: an encoded string has characters of the alphabet only, so no dot.
-/

namespace Base64

/-- The `w` lowest bits of `n`. -/
def bits : ℕ → ℕ → List Bool
  | 0, _ => []
  | w + 1, n => decide (n / 2 ^ w % 2 = 1) :: bits w n

def ofBits (bs : List Bool) : ℕ := bs.foldl (fun n b => 2 * n + b.toNat) 0

@[simp] theorem length_bits (w n : ℕ) : (bits w n).length = w := by
  induction w with
  | zero => rfl
  | succ w ih => simp [bits, ih]

theorem foldl_bits (w n m : ℕ) : (bits w n).foldl (fun n b => 2 * n + b.toNat) m = 2 ^ w * m + n % 2 ^ w := by
  induction w generalizing m with
  | zero => simp [bits, Nat.mod_one]
  | succ w ih =>
    have hbit : (decide (n / 2 ^ w % 2 = 1)).toNat = n / 2 ^ w % 2 := by
      rcases Nat.mod_two_eq_zero_or_one (n / 2 ^ w) with h | h <;> simp [h]
    have hmod : n % 2 ^ (w + 1) = 2 ^ w * (n / 2 ^ w % 2) + n % 2 ^ w := by
      rw [Nat.pow_succ, Nat.mod_mul]; omega
    rw [bits, List.foldl_cons, ih, hbit, hmod, Nat.pow_succ]
    generalize n / 2 ^ w % 2 = b
    rw [Nat.mul_add]
    have hassoc : 2 ^ w * (2 * m) = 2 ^ w * 2 * m := (Nat.mul_assoc _ _ _).symm
    omega

/-- **A number is read back from its bits.** -/
theorem ofBits_bits (w n : ℕ) : ofBits (bits w n) = n % 2 ^ w := by
  rw [ofBits, foldl_bits]; simp

theorem bits_congr {w n m : ℕ} (h : n % 2 ^ w = m % 2 ^ w) : bits w n = bits w m := by
  induction w with
  | zero => rfl
  | succ w ih =>
    rw [Nat.pow_succ, Nat.mod_mul, Nat.mod_mul] at h
    have hn := Nat.mod_lt n (Nat.two_pow_pos w)
    have hm := Nat.mod_lt m (Nat.two_pow_pos w)
    have hlow : n % 2 ^ w = m % 2 ^ w := by
      have h' := congrArg (· % 2 ^ w) h
      simpa [Nat.add_mul_mod_self_left, Nat.mod_eq_of_lt hn, Nat.mod_eq_of_lt hm] using h'
    have hhigh : n / 2 ^ w % 2 = m / 2 ^ w % 2 := by
      rw [hlow] at h
      exact Nat.eq_of_mul_eq_mul_left (Nat.two_pow_pos w) (Nat.add_left_cancel h)
    rw [bits, bits, hhigh, ih hlow]

theorem foldl_lt (bs : List Bool) (m : ℕ) :
    bs.foldl (fun n b => 2 * n + b.toNat) m = 2 ^ bs.length * m + ofBits bs ∧ ofBits bs < 2 ^ bs.length := by
  induction bs generalizing m with
  | nil => simp [ofBits]
  | cons b bs ih =>
    have hb : b.toNat ≤ 1 := Bool.toNat_le b
    obtain ⟨hm, hlt⟩ := ih (2 * m + b.toNat)
    obtain ⟨h0, -⟩ := ih (2 * 0 + b.toNat)
    have hof : ofBits (b :: bs) = 2 ^ bs.length * b.toNat + ofBits bs := by
      rw [ofBits, List.foldl_cons, h0]; simp
    have hle : 2 ^ bs.length * b.toNat ≤ 2 ^ bs.length := by
      calc 2 ^ bs.length * b.toNat ≤ 2 ^ bs.length * 1 := Nat.mul_le_mul_left _ hb
        _ = 2 ^ bs.length := Nat.mul_one _
    rw [List.foldl_cons, hm, hof, List.length_cons, Nat.pow_succ]
    refine ⟨?_, by omega⟩
    rw [Nat.mul_add, ← Nat.mul_assoc, Nat.add_assoc]

theorem bits_ofBits (bs : List Bool) : bits bs.length (ofBits bs) = bs := by
  induction bs with
  | nil => rfl
  | cons b bs ih =>
    obtain ⟨h, -⟩ := foldl_lt bs (2 * 0 + b.toNat)
    have hlt := (foldl_lt bs 0).2
    have hof : ofBits (b :: bs) = 2 ^ bs.length * b.toNat + ofBits bs := by
      rw [ofBits, List.foldl_cons, h]; simp
    have hdiv : ofBits (b :: bs) / 2 ^ bs.length = b.toNat := by
      rw [hof, Nat.mul_add_div (Nat.two_pow_pos _), Nat.div_eq_of_lt hlt, Nat.add_zero]
    have hlow : bits bs.length (ofBits (b :: bs)) = bits bs.length (ofBits bs) :=
      bits_congr (by rw [hof, Nat.mul_add_mod])
    rw [List.length_cons, bits, hdiv, hlow, ih]
    cases b <;> rfl

/-- Blocks of `k` bits, the first of them begun with `acc`; what is left over is dropped. -/
def blocks (k : ℕ) (acc : List Bool) : List Bool → List (List Bool)
  | [] => []
  | b :: bs => if acc.length + 1 = k then (acc ++ [b]) :: blocks k [] bs else blocks k (acc ++ [b]) bs

/-- Blocks of `k` bits, the last one filled up with zeros. -/
def paddedBlocks (k : ℕ) (acc : List Bool) : List Bool → List (List Bool)
  | [] => if acc = [] then [] else [acc ++ List.replicate (k - acc.length) false]
  | b :: bs => if acc.length + 1 = k then (acc ++ [b]) :: paddedBlocks k [] bs else paddedBlocks k (acc ++ [b]) bs

theorem paddedBlocks_flatten {k : ℕ} (acc bs : List Bool) (hacc : acc.length < k) :
    (∀ block ∈ paddedBlocks k acc bs, block.length = k) ∧
      ∃ r < k, (paddedBlocks k acc bs).flatten = acc ++ bs ++ List.replicate r false := by
  induction bs generalizing acc with
  | nil =>
    by_cases hnil : acc = []
    · subst hnil
      exact ⟨by simp [paddedBlocks], 0, hacc, by simp [paddedBlocks]⟩
    · have hpos : 0 < acc.length := List.length_pos_iff.2 hnil
      simp only [paddedBlocks, hnil, if_false, List.mem_singleton, forall_eq, List.flatten_singleton]
      refine ⟨by simp; omega, k - acc.length, by omega, by simp⟩
  | cons b bs ih =>
    unfold paddedBlocks
    split
    · rename_i hfull
      obtain ⟨hlen, r, hr, hflat⟩ := ih [] (by simp; omega)
      refine ⟨?_, r, hr, ?_⟩
      · intro block hmem
        rcases List.mem_cons.1 hmem with rfl | hmem
        · simpa using hfull
        · exact hlen block hmem
      · rw [List.flatten_cons, hflat]; simp
    · rename_i hmore
      obtain ⟨hlen, r, hr, hflat⟩ := ih (acc ++ [b]) (by simp; omega)
      exact ⟨hlen, r, hr, by rw [hflat]; simp⟩

theorem blocks_block {k : ℕ} (acc block rest : List Bool) (hne : block ≠ [])
    (hlen : acc.length + block.length = k) :
    blocks k acc (block ++ rest) = (acc ++ block) :: blocks k [] rest := by
  induction block generalizing acc with
  | nil => exact absurd rfl hne
  | cons b bs ih =>
    rw [List.cons_append, blocks]
    by_cases hlast : bs = []
    · subst hlast
      rw [if_pos (by simpa using hlen), List.nil_append]
    · have hpos : 0 < bs.length := List.length_pos_iff.2 hlast
      rw [List.length_cons] at hlen
      rw [if_neg (by omega), ih (acc ++ [b]) hlast (by simp; omega)]
      simp

theorem blocks_short {k : ℕ} (acc bs : List Bool) (h : acc.length + bs.length < k) : blocks k acc bs = [] := by
  induction bs generalizing acc with
  | nil => rfl
  | cons b bs ih =>
    rw [List.length_cons] at h
    rw [blocks, if_neg (by omega)]
    exact ih _ (by simp; omega)

theorem blocks_flatten {k : ℕ} (hk : 0 < k) (bss : List (List Bool)) (rest : List Bool)
    (hbss : ∀ bs ∈ bss, bs.length = k) (hrest : rest.length < k) : blocks k [] (bss.flatten ++ rest) = bss := by
  induction bss with
  | nil => exact blocks_short [] rest (by simpa using hrest)
  | cons bs bss ih =>
    have hlen := hbss bs List.mem_cons_self
    have hne : bs ≠ [] := by rintro rfl; simp at hlen; omega
    rw [List.flatten_cons, List.append_assoc, blocks_block [] bs _ hne (by simpa using hlen), List.nil_append,
      ih fun bs h => hbss bs (List.mem_cons_of_mem _ h)]

/-- The character of six bits. -/
def digit (n : ℕ) : Char :=
  if n < 26 then Char.ofNat (65 + n)
  else if n < 52 then Char.ofNat (71 + n)
  else if n < 62 then Char.ofNat (n - 4)
  else if n = 62 then '-'
  else '_'

/-- The six bits of a character, of either alphabet. -/
def value (c : Char) : Option ℕ :=
  let n := c.toNat
  if 65 ≤ n ∧ n ≤ 90 then some (n - 65)
  else if 97 ≤ n ∧ n ≤ 122 then some (n - 71)
  else if 48 ≤ n ∧ n ≤ 57 then some (n + 4)
  else if n = 43 ∨ n = 45 then some 62
  else if n = 47 ∨ n = 95 then some 63
  else none

theorem value_digit : ∀ n < 64, value (digit n) = some n := by decide

/-- `Buffer.from(bytes).toString('base64url')`. -/
def encode (bytes : List UInt8) : String :=
  String.ofList ((paddedBlocks 6 [] (bytes.flatMap fun b => bits 8 b.toNat)).map fun block => digit (ofBits block))

/-- `Buffer.from(s, 'base64url')`. -/
def decode (s : String) : List UInt8 :=
  (blocks 8 [] (((s.toList.takeWhile (· ≠ '=')).filterMap value).flatMap (bits 6))).map fun block =>
    UInt8.ofNat (ofBits block)

/-- An encoded string has characters of the alphabet only. -/
theorem encode_alphabet (bytes : List UInt8) : ∀ c ∈ (encode bytes).toList, (value c).isSome = true := by
  intro c hc
  rw [encode, String.toList_ofList] at hc
  obtain ⟨block, hblock, rfl⟩ := List.mem_map.1 hc
  have hlen := (paddedBlocks_flatten (k := 6) [] (bytes.flatMap fun b => bits 8 b.toNat) (by simp)).1 block hblock
  have hlt := (foldl_lt block 0).2
  rw [hlen] at hlt
  rw [value_digit _ hlt]
  rfl

/-- Nothing of an encoded string is left out. -/
theorem takeWhile_encode (bytes : List UInt8) :
    (encode bytes).toList.takeWhile (· ≠ '=') = (encode bytes).toList := by
  refine List.takeWhile_eq_self_iff.2 fun c hc => ?_
  have hvalue := encode_alphabet bytes c hc
  refine decide_eq_true fun heq => ?_
  subst heq
  cases hvalue

/-- **What was encoded is decoded.** -/
theorem decode_encode (bytes : List UInt8) : decode (encode bytes) = bytes := by
  have hoctets : ∀ bs ∈ bytes.map (fun b => bits 8 b.toNat), bs.length = 8 := by
    intro bs hbs
    obtain ⟨b, -, rfl⟩ := List.mem_map.1 hbs
    exact length_bits 8 _
  obtain ⟨hlen, r, hr, hflat⟩ := paddedBlocks_flatten (k := 6) [] (bytes.flatMap fun b => bits 8 b.toNat) (by simp)
  -- the characters give back the blocks of six
  have hsextets : ((paddedBlocks 6 [] (bytes.flatMap fun b => bits 8 b.toNat)).map
      (fun block => digit (ofBits block))).filterMap value =
      (paddedBlocks 6 [] (bytes.flatMap fun b => bits 8 b.toNat)).map ofBits := by
    rw [List.filterMap_map, ← List.filterMap_eq_map]
    refine List.filterMap_congr fun block hblock => ?_
    have hlt := (foldl_lt block 0).2
    rw [hlen block hblock] at hlt
    exact value_digit _ hlt
  have hbits : ((paddedBlocks 6 [] (bytes.flatMap fun b => bits 8 b.toNat)).map ofBits).flatMap (bits 6) =
      (bytes.map fun b => bits 8 b.toNat).flatten ++ List.replicate r false := by
    rw [List.flatMap_map, ← List.flatMap_def, ← List.nil_append (List.flatMap _ bytes), ← hflat, List.flatMap_def]
    congr 1
    conv_rhs => rw [← List.map_id (paddedBlocks 6 [] _)]
    refine List.map_congr_left fun block hblock => ?_
    have hblock' := bits_ofBits block
    rwa [hlen block hblock] at hblock'
  unfold decode
  rw [takeWhile_encode, encode, String.toList_ofList, hsextets, hbits,
    blocks_flatten (by omega) _ _ hoctets (by simp; omega), List.map_map]
  conv_rhs => rw [← List.map_id bytes]
  refine List.map_congr_left fun b _ => ?_
  have hb : b.toNat < 2 ^ 8 := b.toNat_lt
  simp only [Function.comp_apply, ofBits_bits, Nat.mod_eq_of_lt hb, id]
  exact UInt8.ofNat_toNat

theorem dot_notMem_encode (bytes : List UInt8) : '.' ∉ (encode bytes).toList := by
  intro hdot
  have hvalue := encode_alphabet bytes '.' hdot
  cases hvalue

example : encode [0x7b, 0x7d] = "e30" ∧ decode "e30=e30" = [0x7b, 0x7d] := by decide +kernel

end Base64
