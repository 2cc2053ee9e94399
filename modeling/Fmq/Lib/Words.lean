import Mathlib.Data.Nat.Digits.Defs
import Fmq.Lib.Memory

/-!
# Words in a memory of bytes

Little-endian words of eight bytes.
-/
namespace Memory

/-- The word at address `a`. -/
def word (m : Mem UInt8) (a : Nat) : UInt64 :=
  .ofNat (Nat.ofDigits 256 ((load m a 8).map UInt8.toNat))

/-- The bytes of a word. -/
def wordBytes (x : UInt64) : List UInt8 := (List.range 8).map fun i => .ofNat (x.toNat / 256 ^ i)

def setWord (m : Mem UInt8) (a : Nat) (x : UInt64) : Mem UInt8 := store m a (wordBytes x)

variable (m : Mem UInt8) (a b : Nat) (x : UInt64)

theorem length_wordBytes : (wordBytes x).length = 8 := by
  rw [wordBytes, List.length_map, List.length_range]

theorem load_setWord : load (setWord m a x) a 8 = wordBytes x := by
  refine List.ext_getElem ?_ fun i _ inside => ?_
  · rw [length_load, length_wordBytes]
  · have found := getElem?_load (setWord m a x) a 8 i (by rwa [length_wordBytes] at inside)
    rw [List.getElem?_eq_some_iff] at found
    obtain ⟨_, eq⟩ := found
    rw [eq, setWord, store_inside m a i (wordBytes x) inside]

theorem word_setWord : word (setWord m a x) a = x := by
  have bound := x.toNat_lt
  rw [word, load_setWord, ← UInt64.toNat_inj]
  simp [wordBytes, List.range_succ, Nat.ofDigits_cons]
  omega

theorem word_setWord_ne (apart : a + 8 ≤ b ∨ b + 8 ≤ a) : word (setWord m a x) b = word m b := by
  rw [word, word, load_congr (setWord m a x) m b 8]
  intro c below above
  refine store_outside m a c (wordBytes x) ?_
  rw [length_wordBytes]
  omega

theorem digit_lt {bytes : List UInt8} : ∀ digit ∈ bytes.map UInt8.toNat, digit < 256 :=
  List.forall_mem_map.mpr fun byte _ => byte.toNat_lt

theorem toNat_word : (word m a).toNat = Nat.ofDigits 256 ((load m a 8).map UInt8.toNat) := by
  refine UInt64.toNat_ofNat_of_lt' (Nat.lt_of_lt_of_le
    (Nat.ofDigits_lt_base_pow_length (by decide) digit_lt) ?_)
  rw [List.length_map, length_load]
  decide

theorem wordBytes_word : wordBytes (word m a) = load m a 8 := by
  refine List.ext_getElem (by rw [length_wordBytes, length_load]) fun i _ inside => ?_
  -- The digits from `i` on are the byte and a multiple of 256.
  have rest := Nat.ofDigits_div_pow_eq_ofDigits_drop i (by decide : 0 < 256)
    ((load m a 8).map UInt8.toNat) digit_lt
  rw [List.drop_eq_getElem_cons (by rwa [List.length_map]), Nat.ofDigits_cons] at rest
  simp only [wordBytes, List.getElem_map, List.getElem_range, toNat_word]
  rw [rest, List.getElem_map, ← UInt8.toNat_inj, UInt8.toNat_ofNat', Nat.add_mul_mod_self_left,
    Nat.mod_eq_of_lt (UInt8.toNat_lt _)]

theorem setWord_word : setWord m a (word m a) = m := by
  funext c
  rcases store_cases m a c (wordBytes (word m a)) with ⟨i, inside, rfl, eq⟩ | ⟨-, eq⟩
  · have below : i < 8 := by rwa [length_wordBytes] at inside
    have found := getElem?_load m a 8 i below
    rw [← wordBytes_word, List.getElem?_eq_getElem inside, Option.some.injEq] at found
    exact eq.trans found
  · exact eq

end Memory
