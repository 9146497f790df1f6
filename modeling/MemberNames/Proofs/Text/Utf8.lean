import MemberNames.Text.Utf8

/-!
# UTF-8 reads back

Writing UTF-8 and reading it are inverse to each other: every text is read from its own octets, and
from no others. An octet string that is no UTF-8 is not read at all.

* `Utf8.decode?_eq_some_iff`: what is read as a text is what the text is written as
* `Utf8.encode_injective`: different texts have different octets
* `Utf8.encodeChar_cases`, `Utf8.mem_encode_iff`, `Utf8.map_ofUInt8_encode`: octets of the ASCII
  range stand for themselves
* `Utf8.size_le`: a character takes at most four octets
-/

namespace MemberNames
namespace Utf8

/-! ## Continuation octets -/

theorem toNat_tailOctet (n : Nat) : (tailOctet n).toNat = 0x80 + n % 64 := by
  rw [tailOctet, UInt8.toNat_ofNat']
  omega

theorem tailBits?_tailOctet (n : Nat) : tailBits? (tailOctet n) = some (n % 64) := by
  have hRange : 0x80 ≤ (tailOctet n).toNat ∧ (tailOctet n).toNat < 0xC0 := by
    rw [toNat_tailOctet]
    omega
  rw [tailBits?, if_pos hRange, toNat_tailOctet, Nat.add_sub_cancel_left]

theorem tailBits?_lt {b : UInt8} {x : Nat} (h : tailBits? b = some x) : x < 64 := by
  simp only [tailBits?] at h
  split at h
  · have hx : b.toNat - 0x80 = x := Option.some.inj h
    omega
  · cases h

/-- The six bits determine the octet, whatever stands above them in `n`. -/
theorem tailOctet_eq {b : UInt8} {x n : Nat} (h : tailBits? b = some x) (hn : n % 64 = x) :
    tailOctet n = b := by
  simp only [tailBits?] at h
  -- Octets are compared as numbers.
  split at h
  · have hx : b.toNat - 0x80 = x := Option.some.inj h
    apply UInt8.toNat_inj.1
    rw [toNat_tailOctet]
    omega
  · cases h

/-- A lead octet is determined by its value. -/
theorem ofNat_eq {a : UInt8} {n : Nat} (h : n = a.toNat) : UInt8.ofNat n = a := by
  rw [h, UInt8.ofNat_toNat]

/-! ## Scalar values -/

theorem toNat_lt (c : Char) : c.toNat < 0x110000 := by
  rcases c.valid with h | h
  · exact Nat.lt_trans h (by decide)
  · exact h.2

theorem toNat_ofNat {n : Nat} (h : n.isValidChar) : (Char.ofNat n).toNat = n := by
  rw [Char.ofNat, dif_pos h]
  rfl

theorem scalar?_toNat {least : Nat} {c : Char} (h : least ≤ c.toNat) :
    scalar? least c.toNat = some c := by
  rw [scalar?, if_pos ⟨h, c.valid⟩, Char.ofNat_toNat]

theorem toNat_of_scalar? {least n : Nat} {c : Char} (h : scalar? least n = some c) :
    c.toNat = n ∧ least ≤ n := by
  simp only [scalar?] at h
  split at h
  · rename_i hn
    have hc : Char.ofNat n = c := Option.some.inj h
    refine ⟨?_, hn.1⟩
    rw [← hc, toNat_ofNat hn.2]
  · cases h

/-! ## Writing, then reading -/

theorem toNat_ofNat_of_lt {n : Nat} (h : n < 256) : (UInt8.ofNat n).toNat = n := by
  rw [UInt8.toNat_ofNat']
  omega

theorem bind_of_eq_some {α β : Type} {o : Option α} {a : α} {f : α → Option β} (h : o = some a) :
    (o >>= f) = f a := by
  rw [h]
  rfl

theorem decode?_encodeChar_append (c : Char) (s : Octets) :
    decode? (encodeChar c ++ s) = (decode? s).map (c :: ·) := by
  have hMax := toNat_lt c
  simp only [encodeChar]
  -- One case for each number of octets; the value of the lead octet settles how it is read.
  split
  · rename_i h1
    have hLead := toNat_ofNat_of_lt (n := c.toNat) (by omega)
    rw [List.singleton_append, decode?.eq_def]
    simp only [hLead, h1, if_true, Char.ofNat_toNat]
  split
  · rename_i h1 h2
    have hLead := toNat_ofNat_of_lt (n := 0xC0 + c.toNat / 64) (by omega)
    have hValue : (0xC0 + c.toNat / 64 - 0xC0) * 64 + c.toNat % 64 = c.toNat := by omega
    have hScalar : scalar? 0x80 c.toNat = some c := scalar?_toNat (by omega)
    rw [List.cons_append, List.singleton_append, decode?.eq_def]
    simp only [hLead]
    rw [if_neg (by omega), if_neg (by omega), if_pos (by omega),
      bind_of_eq_some (tailBits?_tailOctet _), hValue, bind_of_eq_some hScalar]
  split
  · rename_i h1 h2 h3
    have hLead := toNat_ofNat_of_lt (n := 0xE0 + c.toNat / 4096) (by omega)
    have hValue :
        (0xE0 + c.toNat / 4096 - 0xE0) * 4096 + c.toNat / 64 % 64 * 64 + c.toNat % 64 =
          c.toNat := by
      omega
    have hScalar : scalar? 0x800 c.toNat = some c := scalar?_toNat (by omega)
    rw [List.cons_append, List.cons_append, List.singleton_append, decode?.eq_def]
    simp only [hLead]
    rw [if_neg (by omega), if_neg (by omega), if_neg (by omega), if_pos (by omega),
      bind_of_eq_some (tailBits?_tailOctet _), bind_of_eq_some (tailBits?_tailOctet _), hValue,
      bind_of_eq_some hScalar]
  · rename_i h1 h2 h3
    have hLead := toNat_ofNat_of_lt (n := 0xF0 + c.toNat / 262144) (by omega)
    have hValue :
        (0xF0 + c.toNat / 262144 - 0xF0) * 262144 + c.toNat / 4096 % 64 * 4096 +
          c.toNat / 64 % 64 * 64 + c.toNat % 64 = c.toNat := by
      omega
    have hScalar : scalar? 0x10000 c.toNat = some c := scalar?_toNat (by omega)
    rw [List.cons_append, List.cons_append, List.cons_append, List.singleton_append,
      decode?.eq_def]
    simp only [hLead]
    rw [if_neg (by omega), if_neg (by omega), if_neg (by omega), if_neg (by omega),
      if_pos (by omega), bind_of_eq_some (tailBits?_tailOctet _),
      bind_of_eq_some (tailBits?_tailOctet _), bind_of_eq_some (tailBits?_tailOctet _), hValue,
      bind_of_eq_some hScalar]

@[simp] theorem encode_nil : encode [] = [] :=
  rfl

@[simp] theorem encode_cons (c : Char) (s : Text) : encode (c :: s) = encodeChar c ++ encode s :=
  List.flatMap_cons

@[simp] theorem encode_append (s t : Text) : encode (s ++ t) = encode s ++ encode t :=
  List.flatMap_append

theorem decode?_encode (s : Text) : decode? (encode s) = some s := by
  induction s with
  | nil =>
      simp [decode?]
  | cons c s ih =>
      calc
        decode? (encode (c :: s)) = decode? (encodeChar c ++ encode s) := by rw [encode_cons]
        _ = (decode? (encode s)).map (c :: ·) := decode?_encodeChar_append c _
        _ = some (c :: s) := by rw [ih, Option.map_some]

theorem encode_injective {s t : Text} (h : encode s = encode t) : s = t := by
  have hSame : some s = some t :=
    calc
      some s = decode? (encode s) := (decode?_encode s).symm
      _ = decode? (encode t) := by rw [h]
      _ = some t := decode?_encode t
  exact Option.some.inj hSame

/-! ## Reading, then writing -/

theorem encode_of_decode? {bs : Octets} {s : Text} (h : decode? bs = some s) : encode s = bs := by
  fun_induction decode? bs generalizing s with
  | case1 =>
      cases h
      rfl
  -- One case for each number of octets, as in writing.
  | case2 a bs ha ih =>
      rcases Option.map_eq_some_iff.1 h with ⟨t, ht, rfl⟩
      have hc : (Char.ofNat a.toNat).toNat = a.toNat := toNat_ofNat (Or.inl (by omega))
      rw [encode_cons, ih ht, encodeChar, hc, if_pos ha, UInt8.ofNat_toNat, List.singleton_append]
  | case4 a h1 h2 h3 b bs ih =>
      simp only [Option.bind_eq_bind, Option.bind_eq_some_iff] at h
      rcases h with ⟨x, hx, c, hc, h⟩
      rcases Option.map_eq_some_iff.1 h with ⟨t, ht, rfl⟩
      rcases toNat_of_scalar? hc with ⟨hn, hLeast⟩
      have hxLt := tailBits?_lt hx
      -- The least value for two octets keeps the character out of the branch for one.
      rw [encode_cons, ih ht, encodeChar, hn, if_neg (by omega), if_pos (by omega),
        ofNat_eq (a := a) (by omega), tailOctet_eq hx (by omega)]
      rfl
  | case6 a h1 h2 h3 h4 b b' bs ih =>
      simp only [Option.bind_eq_bind, Option.bind_eq_some_iff] at h
      rcases h with ⟨x, hx, y, hy, c, hc, h⟩
      rcases Option.map_eq_some_iff.1 h with ⟨t, ht, rfl⟩
      rcases toNat_of_scalar? hc with ⟨hn, hLeast⟩
      have hxLt := tailBits?_lt hx
      have hyLt := tailBits?_lt hy
      rw [encode_cons, ih ht, encodeChar, hn, if_neg (by omega), if_neg (by omega),
        if_pos (by omega), ofNat_eq (a := a) (by omega), tailOctet_eq hx (by omega),
        tailOctet_eq hy (by omega)]
      rfl
  | case8 a h1 h2 h3 h4 h5 b b' b'' bs ih =>
      simp only [Option.bind_eq_bind, Option.bind_eq_some_iff] at h
      rcases h with ⟨x, hx, y, hy, z, hz, c, hc, h⟩
      rcases Option.map_eq_some_iff.1 h with ⟨t, ht, rfl⟩
      rcases toNat_of_scalar? hc with ⟨hn, hLeast⟩
      have hxLt := tailBits?_lt hx
      have hyLt := tailBits?_lt hy
      have hzLt := tailBits?_lt hz
      rw [encode_cons, ih ht, encodeChar, hn, if_neg (by omega), if_neg (by omega),
        if_neg (by omega), ofNat_eq (a := a) (by omega), tailOctet_eq hx (by omega),
        tailOctet_eq hy (by omega), tailOctet_eq hz (by omega)]
      rfl
  -- Octets that are cut off or have no lead octet are not read.
  | case3 | case5 | case7 | case9 | case10 =>
      cases h

theorem decode?_eq_some_iff {bs : Octets} {s : Text} : decode? bs = some s ↔ encode s = bs := by
  constructor
  · exact encode_of_decode?
  · intro h
    rw [← h, decode?_encode]

/-! ## Octets of the ASCII range -/

/-- A character of the ASCII range is one octet; any other is two octets or more above it. -/
theorem encodeChar_cases (c : Char) :
    (c.toNat < 0x80 ∧ encodeChar c = [UInt8.ofNat c.toNat]) ∨
      ∃ x y rest, encodeChar c = x :: y :: rest ∧ ∀ b ∈ encodeChar c, 0x80 ≤ b.toNat := by
  have hMax := toNat_lt c
  have hAbove : ∀ n, ∀ bits : List Nat, 0x80 ≤ n → n < 256 →
      ∀ b ∈ UInt8.ofNat n :: bits.map tailOctet, 0x80 ≤ b.toNat := by
    intro n bits hn hLt b hb
    rcases List.mem_cons.1 hb with rfl | hTail
    · rw [toNat_ofNat_of_lt hLt]
      exact hn
    · rcases List.mem_map.1 hTail with ⟨m, -, rfl⟩
      rw [toNat_tailOctet]
      omega
  simp only [encodeChar]
  split
  · rename_i h1
    exact .inl ⟨h1, rfl⟩
  split
  · exact .inr ⟨_, _, _, rfl, hAbove _ [_] (by omega) (by omega)⟩
  split
  · exact .inr ⟨_, _, _, rfl, hAbove _ [_, _] (by omega) (by omega)⟩
  · exact .inr ⟨_, _, _, rfl, hAbove _ [_, _, _] (by omega) (by omega)⟩

variable {c : Char}

theorem mem_encodeChar_iff (h : c.toNat < 0x80) {d : Char} :
    UInt8.ofNat c.toNat ∈ encodeChar d ↔ c = d := by
  have hc : (UInt8.ofNat c.toNat).toNat = c.toNat := toNat_ofNat_of_lt (by omega)
  constructor
  · intro hMem
    rcases encodeChar_cases d with ⟨hd, hOctet⟩ | ⟨x, y, rest, -, hAbove⟩
    · rw [hOctet, List.mem_singleton, ← UInt8.toNat_inj, hc, toNat_ofNat_of_lt (by omega)] at hMem
      exact Char.toNat_inj.1 hMem
    · have hLeast := hAbove _ hMem
      rw [hc] at hLeast
      omega
  · rintro rfl
    have hOctet : encodeChar c = [UInt8.ofNat c.toNat] := if_pos h
    rw [hOctet]
    exact List.mem_singleton_self _

theorem mem_encode_iff (h : c.toNat < 0x80) {s : Text} :
    UInt8.ofNat c.toNat ∈ encode s ↔ c ∈ s := by
  simp only [encode, List.mem_flatMap, mem_encodeChar_iff h, exists_eq_right']

theorem getLast?_of_getLast?_encode (h : c.toNat < 0x80) {s : Text}
    (hLast : (encode s).getLast? = some (UInt8.ofNat c.toNat)) : s.getLast? = some c := by
  rcases s.eq_nil_or_concat with rfl | ⟨front, d, rfl⟩
  · cases hLast
  · have hSome : (encodeChar d).getLast?.isSome := by
      rcases encodeChar_cases d with ⟨-, hOctet⟩ | ⟨x, y, rest, hOctets, -⟩
      · rw [hOctet]
        rfl
      · rw [hOctets]
        rfl
    rw [List.concat_eq_append, encode_append, encode_cons, encode_nil, List.append_nil,
      List.getLast?_append, Option.or_of_isSome hSome] at hLast
    rw [(mem_encodeChar_iff h).1 (List.mem_of_getLast? hLast), List.concat_eq_append,
      List.getLast?_concat]

theorem map_ofUInt8_encode {s : Text} (h : ∀ c ∈ s, c.toNat < 0x80) :
    (encode s).map Char.ofUInt8 = s := by
  induction s with
  | nil =>
      rfl
  | cons c s ih =>
      rcases List.forall_mem_cons.1 h with ⟨hc, hs⟩
      have hOctet : encodeChar c = [UInt8.ofNat c.toNat] := if_pos hc
      have hValue : (UInt8.ofNat c.toNat).toNat = c.toNat := toNat_ofNat_of_lt (by omega)
      have hChar : Char.ofUInt8 (UInt8.ofNat c.toNat) = c := Char.toNat_inj.1 hValue
      rw [encode_cons, hOctet, List.singleton_append, List.map_cons, hChar, ih hs]

/-- Octets that are all of the ASCII range are those of characters of the ASCII range. -/
theorem toNat_lt_of_map_ofUInt8 {s : Text}
    (h : ∀ c ∈ (encode s).map Char.ofUInt8, c.toNat < 0x80) : ∀ c ∈ s, c.toNat < 0x80 := by
  intro c hc
  rcases encodeChar_cases c with ⟨hLt, -⟩ | ⟨x, y, rest, hOctets, hAbove⟩
  · exact hLt
  · have hx : x ∈ encodeChar c := by
      rw [hOctets]
      exact List.mem_cons_self
    have hLow : (Char.ofUInt8 x).toNat < 0x80 :=
      h _ (List.mem_map_of_mem (List.mem_flatMap.2 ⟨c, hc, hx⟩))
    have hSame : (Char.ofUInt8 x).toNat = x.toNat := rfl
    have hHigh := hAbove x hx
    omega

/-! ## Sizes -/

theorem size_append (s t : Text) : size (s ++ t) = size s + size t := by
  rw [size, encode_append, List.length_append, size, size]

theorem length_encodeChar_le (c : Char) : (encodeChar c).length ≤ 4 := by
  simp only [encodeChar]
  split
  · simp
  split
  · simp
  split <;> simp

/-- A character of the ASCII range takes one octet. -/
theorem size_eq_length {s : Text} (h : ∀ c ∈ s, c.toNat < 0x80) : size s = s.length := by
  induction s with
  | nil =>
      rfl
  | cons c s ih =>
      rcases List.forall_mem_cons.1 h with ⟨hc, hs⟩
      have hChar : encodeChar c = [UInt8.ofNat c.toNat] := if_pos hc
      have hRest : (encode s).length = s.length := ih hs
      rw [size, encode_cons, hChar, List.singleton_append, List.length_cons, hRest,
        List.length_cons]

theorem size_le (s : Text) : size s ≤ 4 * s.length := by
  induction s with
  | nil =>
      simp [size]
  | cons c s ih =>
      have hc := length_encodeChar_le c
      simp only [size, encode_cons, List.length_append, List.length_cons] at ih ⊢
      omega

end Utf8
end MemberNames
