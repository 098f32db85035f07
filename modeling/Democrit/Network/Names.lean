import Democrit.Authenticator
import Mathlib.Logic.ExistsUnique
import Mathlib.Tactic.IntervalCases

/-!
# User names and account names

`encodeName` says which XMPP user name belongs to a Xaya name: the name itself, if it is simple, and
otherwise `x-` and the bytes in hexadecimal.  **`DecodeName` accepts exactly the encodings**
(`decodeName_bijection`), so every account has one user name and no two user names
authenticate as the same account.

The decoder works nibble by nibble.  Two characters at a time, it undoes one byte of the encoding
(`decodeLoop_pair`), and a character that is no digit makes it give up; the rest is an induction
over the pairs.
-/

namespace Democrit

/-! ## The encoding -/

/-- The lower-case hexadecimal digit of a nibble. -/
def hexDigit (n : ℕ) : Int8 := if n < 10 then Int8.ofNat (48 + n) else Int8.ofNat (87 + n)

/-- The two digits of a byte. -/
def hexByte (c : Int8) : Bytes := [hexDigit (c.toUInt8.toNat / 16), hexDigit (c.toUInt8.toNat % 16)]

/-- A string in hexadecimal. -/
def hexEncode (s : Bytes) : Bytes := s.flatMap hexByte

/-- The user name of a Xaya name. -/
def encodeName (n : Bytes) : Bytes :=
  if n ≠ [] ∧ n.all isSimpleChar then n else encodedPrefix ++ hexEncode n

/-! ## Digits -/

/-- Facts about a single character can be checked for all 256 of them. -/
lemma forall_char {P : Int8 → Prop} (h : ∀ n : Fin 256, P (UInt8.ofFin n).toInt8) (c : Int8) :
    P c := by
  have := h c.toUInt8.toFin
  rwa [UInt8.ofFin_toFin, Int8.toInt8_toUInt8] at this

/-- A hexadecimal digit has its value, and nothing else has one. -/
lemma hexCharValue_cases (c : Int8) :
    hexCharValue c = -1 ∧ (∀ n : Fin 16, c ≠ hexDigit n) ∨
      ∃ n : Fin 16, hexCharValue c = n.val ∧ c = hexDigit n := by
  revert c
  refine forall_char ?_
  decide +kernel

lemma hexCharValue_hexDigit {n : ℕ} (hn : n < 16) : hexCharValue (hexDigit n) = n := by
  interval_cases n <;> rfl

lemma hexDigit_injective {m n : ℕ} (hm : m < 16) (hn : n < 16) (h : hexDigit m = hexDigit n) :
    m = n := by
  have hval := congrArg hexCharValue h
  rw [hexCharValue_hexDigit hm, hexCharValue_hexDigit hn] at hval
  exact Int.ofNat.inj hval

/-- The byte that is put together from two nibbles. -/
def joinNibbles (m n : ℕ) : Int8 :=
  (((0 ||| UInt8.ofInt m) <<< 4) ||| UInt8.ofInt n).toInt8

lemma joinNibbles_div_mod (c : Int8) :
    joinNibbles (c.toUInt8.toNat / 16) (c.toUInt8.toNat % 16) = c := by
  revert c
  refine forall_char ?_
  decide +kernel

lemma hexByte_joinNibbles {m n : ℕ} (hm : m < 16) (hn : n < 16) :
    hexByte (joinNibbles m n) = [hexDigit m, hexDigit n] := by
  have h : ∀ m : Fin 16, ∀ n : Fin 16, hexByte (joinNibbles m n) = [hexDigit m, hexDigit n] := by
    decide +kernel
  exact h ⟨m, hm⟩ ⟨n, hn⟩

lemma toNat_div_lt (c : Int8) : c.toUInt8.toNat / 16 < 16 := by
  have := c.toUInt8.toNat_lt
  omega

/-! ## The loop -/

/-- What the loop does with one character that is a digit. -/
lemma decodeLoop_digit {n : ℕ} (hn : n < 16) (rest : Bytes) (st : DecodeState) :
    decodeLoop (hexDigit n :: rest) st =
      if st.inByte then
        decodeLoop rest
          { out := st.out ++ [(st.cur ||| UInt8.ofInt n).toInt8], cur := 0, inByte := false,
            foundNonSimple := st.foundNonSimple
              || !isSimpleChar (st.cur ||| UInt8.ofInt n).toInt8 }
      else decodeLoop rest { st with cur := (st.cur ||| UInt8.ofInt n) <<< 4, inByte := true } := by
  rw [decodeLoop, hexCharValue_hexDigit hn]
  have hne : ¬ (n : ℤ) = -1 := by omega
  have hnonneg : (0 : ℤ) ≤ n := by omega
  have hlt : (n : ℤ) < 16 := by omega
  simp only [hne, hnonneg, hlt, not_true_eq_false, if_false]

/-- **Two digits make a byte.** -/
lemma decodeLoop_pair {m n : ℕ} (hm : m < 16) (hn : n < 16) (rest out : Bytes) (found : Bool) :
    decodeLoop (hexDigit m :: hexDigit n :: rest) { out, foundNonSimple := found } =
      decodeLoop rest
        { out := out ++ [joinNibbles m n]
          foundNonSimple := found || !isSimpleChar (joinNibbles m n) } := by
  rw [decodeLoop_digit hm, if_neg (by simp), decodeLoop_digit hn, if_pos rfl]
  rfl

/-- Anything else ends the loop. -/
lemma decodeLoop_stop {c : Int8} (hc : hexCharValue c = -1) (rest : Bytes) (st : DecodeState) :
    decodeLoop (c :: rest) st = .ok none := by
  rw [decodeLoop, hc]
  rfl

@[simp] lemma hexEncode_nil : hexEncode [] = [] := rfl

lemma hexEncode_cons (c : Int8) (s : Bytes) : hexEncode (c :: s) = hexByte c ++ hexEncode s := rfl

/-- What starts a string in hexadecimal. -/
lemma hexEncode_eq_cons {c d : Int8} {rest bytes : Bytes} (h : c :: d :: rest = hexEncode bytes) :
    (∃ m < 16, c = hexDigit m) ∧ (∃ n < 16, d = hexDigit n) ∧ ∃ bytes', rest = hexEncode bytes' := by
  cases bytes with
  | nil => simp at h
  | cons b bytes =>
      rw [hexEncode_cons, hexByte] at h
      simp only [List.cons_append, List.nil_append, List.cons.injEq] at h
      exact ⟨⟨_, toNat_div_lt b, h.1⟩, ⟨_, Nat.mod_lt _ (by omega), h.2.1⟩, bytes, h.2.2⟩

/-- **The loop over a string of even length** undoes the encoding, or gives up if there is nothing to
undo. -/
theorem decodeLoop_spec : ∀ (s out : Bytes) (found : Bool), s.length % 2 = 0 →
    (∃ bytes, s = hexEncode bytes ∧ decodeLoop s { out, foundNonSimple := found } =
      .ok (some
        { out := out ++ bytes
          foundNonSimple := found || bytes.any fun c => !isSimpleChar c })) ∨
    (∀ bytes, s ≠ hexEncode bytes) ∧
      decodeLoop s { out, foundNonSimple := found } = .ok none
  | [], out, found, _ => Or.inl ⟨[], rfl, by simp [decodeLoop]⟩
  | [c], _, _, hlen => by simp at hlen
  | c :: d :: rest, out, found, hlen => by
      have hrest : rest.length % 2 = 0 := by
        simp only [List.length_cons] at hlen
        omega
      rcases hexCharValue_cases c with ⟨hc, hno⟩ | ⟨⟨m, hm⟩, _, rfl⟩
      · refine Or.inr ⟨?_, decodeLoop_stop hc _ _⟩
        intro bytes hb
        obtain ⟨⟨m, hm, hcm⟩, _⟩ := hexEncode_eq_cons hb
        exact hno ⟨m, hm⟩ hcm
      rcases hexCharValue_cases d with ⟨hd, hno⟩ | ⟨⟨n, hn⟩, _, rfl⟩
      · refine Or.inr ⟨?_, ?_⟩
        · intro bytes hb
          obtain ⟨_, ⟨n, hn, hdn⟩, _⟩ := hexEncode_eq_cons hb
          exact hno ⟨n, hn⟩ hdn
        · rw [decodeLoop_digit hm, if_neg (by simp)]
          exact decodeLoop_stop hd _ _
      rw [decodeLoop_pair hm hn]
      rcases decodeLoop_spec rest (out ++ [joinNibbles m n])
          (found || !isSimpleChar (joinNibbles m n)) hrest with ⟨bytes, hb, h⟩ | ⟨hno, h⟩
      · refine Or.inl ⟨joinNibbles m n :: bytes, ?_, ?_⟩
        · rw [hexEncode_cons, hexByte_joinNibbles hm hn, hb]
          rfl
        · rw [h]
          simp [Bool.or_assoc]
      · refine Or.inr ⟨?_, h⟩
        intro bytes hb
        obtain ⟨_, _, bytes', hb'⟩ := hexEncode_eq_cons hb
        exact hno bytes' hb'

/-! ## The encoding is injective -/

lemma hexByte_injective {c d : Int8} (h : hexByte c = hexByte d) : c = d := by
  simp only [hexByte, List.cons.injEq, and_true] at h
  have hdiv := hexDigit_injective (toNat_div_lt c) (toNat_div_lt d) h.1
  have hmod := hexDigit_injective (Nat.mod_lt _ (by omega)) (Nat.mod_lt _ (by omega)) h.2
  rw [← joinNibbles_div_mod c, hdiv, hmod, joinNibbles_div_mod d]

lemma hexEncode_injective : ∀ {s t : Bytes}, hexEncode s = hexEncode t → s = t
  | [], [], _ => rfl
  | [], d :: t, h => by simp [hexEncode_cons, hexByte] at h
  | c :: s, [], h => by simp [hexEncode_cons, hexByte] at h
  | c :: s, d :: t, h => by
      rw [hexEncode_cons, hexEncode_cons] at h
      obtain ⟨hhead, htail⟩ := List.append_inj h (by simp [hexByte])
      rw [hexByte_injective hhead, hexEncode_injective htail]

lemma length_hexEncode (s : Bytes) : (hexEncode s).length = 2 * s.length := by
  induction s with
  | nil => rfl
  | cons c s ih =>
      rw [hexEncode_cons, List.length_append, ih]
      simp only [hexByte, List.length_cons, List.length_nil]
      omega

/-- A simple name has not the prefix. -/
lemma take_ne_of_simple {n : Bytes} (h : n.all isSimpleChar = true) :
    n.take encodedPrefix.length ≠ encodedPrefix := by
  intro hp
  have hmem : (45 : Int8) ∈ n := by
    have : (45 : Int8) ∈ n.take encodedPrefix.length := by
      rw [hp]
      simp [encodedPrefix]
    exact List.mem_of_mem_take this
  have := List.all_eq_true.mp h 45 hmem
  revert this
  decide

/-! ## `DecodeName` -/

/-- The name after the prefix. -/
lemma decodeName_hex (h : Bytes) (hlen : h.length % 2 = 0) :
    (∃ n, h = hexEncode n ∧ decodeName (encodedPrefix ++ h)
      = .ok (if n ≠ [] ∧ n.all isSimpleChar then none else some n)) ∨
    (∀ n, h ≠ hexEncode n) ∧ decodeName (encodedPrefix ++ h) = .ok none := by
  have hne : (encodedPrefix ++ h).isEmpty = false := rfl
  have htake : (encodedPrefix ++ h).take encodedPrefix.length = encodedPrefix := List.take_left
  have hdrop : (encodedPrefix ++ h).drop encodedPrefix.length = h := List.drop_left
  simp only [decodeName, hne, htake, hdrop, hlen, ne_eq, not_true_eq_false, Bool.false_eq_true,
    if_false]
  cases h with
  | nil => exact Or.inl ⟨[], rfl, by simp⟩
  | cons c rest =>
      rcases decodeLoop_spec (c :: rest) [] false hlen with ⟨bytes, hb, hl⟩ | ⟨hno, hl⟩
      · refine Or.inl ⟨bytes, hb, ?_⟩
        have hbytes : bytes ≠ [] := by
          rintro rfl
          simp at hb
        have hl : decodeLoop (c :: rest) {} = _ := hl
        rw [hl]
        by_cases hall : bytes.all isSimpleChar = true
        · have hany : (bytes.any fun c => !isSimpleChar c) = false := by
            simpa using hall
          simp [hany, hall, hbytes]
        · have hany : (bytes.any fun c => !isSimpleChar c) = true := by
            simpa using hall
          simp [hany, hall]
      · refine Or.inr ⟨hno, ?_⟩
        have hl : decodeLoop (c :: rest) {} = _ := hl
        rw [hl]
        rfl

/-- **`DecodeName` never fails an assertion**, and it returns a name exactly for its encoding. -/
theorem decodeName_spec (s : Bytes) :
    (∃ n, s = encodeName n ∧ decodeName s = .ok (some n)) ∨
      (∀ n, s ≠ encodeName n) ∧ decodeName s = .ok none := by
  by_cases hp : s.take encodedPrefix.length = encodedPrefix
  · -- with the prefix: the name is in hexadecimal
    have hs : s = encodedPrefix ++ s.drop encodedPrefix.length := by
      conv_lhs => rw [← List.take_append_drop encodedPrefix.length s, hp]
    generalize s.drop encodedPrefix.length = h at hs
    subst hs
    have hencode : ∀ n, encodedPrefix ++ h = encodeName n →
        ¬ (n ≠ [] ∧ n.all isSimpleChar) ∧ h = hexEncode n := by
      intro n hn
      rw [encodeName] at hn
      split_ifs at hn with hsimple
      · exact absurd (hn ▸ hp) (take_ne_of_simple hsimple.2)
      · exact ⟨hsimple, List.append_cancel_left hn⟩
    by_cases hlen : h.length % 2 = 0
    · rcases decodeName_hex h hlen with ⟨n, rfl, hd⟩ | ⟨hno, hd⟩
      · by_cases hsimple : n ≠ [] ∧ n.all isSimpleChar
        · rw [if_pos hsimple] at hd
          refine Or.inr ⟨?_, hd⟩
          intro n' hn'
          obtain ⟨hns, heq⟩ := hencode n' hn'
          rw [← hexEncode_injective heq] at hns
          exact hns hsimple
        · rw [if_neg hsimple] at hd
          refine Or.inl ⟨n, ?_, hd⟩
          rw [encodeName, if_neg hsimple]
      · refine Or.inr ⟨?_, hd⟩
        intro n hn
        exact hno n (hencode n hn).2
    · refine Or.inr ⟨?_, ?_⟩
      · intro n hn
        rw [(hencode n hn).2, length_hexEncode] at hlen
        omega
      · have hne : (encodedPrefix ++ h).isEmpty = false := rfl
        have hdrop : (encodedPrefix ++ h).drop encodedPrefix.length = h := List.drop_left
        simp only [decodeName, hne, hp, hdrop, hlen, ne_eq, not_true_eq_false, not_false_eq_true,
          Bool.false_eq_true, if_true, if_false]
  · -- without: it is what it is
    have hencode : ∀ n, s = encodeName n → (n ≠ [] ∧ n.all isSimpleChar) ∧ s = n := by
      intro n hn
      rw [encodeName] at hn
      split_ifs at hn with hsimple
      · exact ⟨hsimple, hn⟩
      · rw [hn, List.take_left] at hp
        exact absurd rfl hp
    by_cases hsimple : s ≠ [] ∧ s.all isSimpleChar
    · refine Or.inl ⟨s, by rw [encodeName, if_pos hsimple], ?_⟩
      simp [decodeName, hp, hsimple]
    · refine Or.inr ⟨?_, ?_⟩
      · intro n hn
        obtain ⟨hns, rfl⟩ := hencode n hn
        exact hsimple hns
      · rw [decodeName]
        by_cases hempty : s = []
        · simp [hempty]
        · have hall : ¬ s.all isSimpleChar = true := fun h => hsimple ⟨hempty, h⟩
          simp [hempty, hp, hall]

lemma decodeName_encodeName (n : Bytes) : decodeName (encodeName n) = .ok (some n) := by
  -- the encoding is not refused, and what it decodes to has the same one
  rcases decodeName_spec (encodeName n) with ⟨n', hn', h⟩ | ⟨hno, _⟩
  · have hinj : n = n' := by
      rw [encodeName, encodeName] at hn'
      split_ifs at hn' with hs hs'
      · exact hn'
      · have := take_ne_of_simple hs.2
        rw [hn', List.take_left] at this
        exact absurd rfl this
      · have := take_ne_of_simple (by assumption : n' ≠ [] ∧ n'.all isSimpleChar = true).2
        rw [← hn', List.take_left] at this
        exact absurd rfl this
      · exact hexEncode_injective (List.append_cancel_left hn')
    rw [h, hinj]
  · exact absurd rfl (hno n)

/-- Who is authenticated has the user name of the account. -/
lemma username_of_authenticate {auth auth' : Authenticator} {jid : Jid} {account : Bytes}
    (h : auth.authenticate jid = .ok (some account, auth')) : jid.username = encodeName account := by
  rw [Authenticator.authenticate] at h
  by_cases hserver : jid.server ∈ auth.xidServers
  · rw [if_neg (not_not.mpr hserver)] at h
    rcases decodeName_spec jid.username with ⟨n, hn, hd⟩ | ⟨_, hd⟩
    · rw [hd] at h
      simp only [Except.ok.injEq, Prod.mk.injEq, Option.some.injEq] at h
      rw [hn, h.1]
    · rw [hd] at h
      simp at h
  · rw [if_pos hserver] at h
    simp at h

/-- **Decoding is a bijection between the accepted user names and the account names.**  No assertion
fails on the way, whatever the string, and JIDs that authenticate as the same account have the same
user name. -/
theorem decodeName_bijection :
    (∀ s n, decodeName s = .ok (some n) ↔ s = encodeName n) ∧
    (∀ s, ∃ r, decodeName s = .ok r) ∧
    (∀ n, ∃! s, decodeName s = .ok (some n)) ∧
    ∀ (auth₁ auth₁' auth₂ auth₂' : Authenticator) (jid₁ jid₂ : Jid) (account : Bytes),
      auth₁.authenticate jid₁ = .ok (some account, auth₁') →
      auth₂.authenticate jid₂ = .ok (some account, auth₂') → jid₁.username = jid₂.username := by
  have hiff : ∀ s n, decodeName s = .ok (some n) ↔ s = encodeName n := by
    intro s n
    constructor
    · intro h
      rcases decodeName_spec s with ⟨n', hs, hd⟩ | ⟨_, hd⟩
      · rw [hd] at h
        rw [hs, Option.some.inj (Except.ok.inj h)]
      · rw [hd] at h
        simp at h
    · rintro rfl
      exact decodeName_encodeName n
  refine ⟨hiff, ?_, ?_, ?_⟩
  · intro s
    rcases decodeName_spec s with ⟨n, _, hd⟩ | ⟨_, hd⟩
    · exact ⟨some n, hd⟩
    · exact ⟨none, hd⟩
  · intro n
    refine ⟨encodeName n, decodeName_encodeName n, ?_⟩
    intro s hs
    exact (hiff s n).mp hs
  · intro auth₁ auth₁' auth₂ auth₂' jid₁ jid₂ account h₁ h₂
    rw [username_of_authenticate h₁, username_of_authenticate h₂]

/-- An upper-case letter has to be encoded. -/
theorem decodeName_bijection_letter : decodeName [120, 45, 52, 49] = .ok (some [65]) :=
  (decodeName_bijection.1 _ _).mpr (by decide)

end Democrit
