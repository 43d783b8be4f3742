import TwoBus.Proofs.Spelling

/-!
# Decoding in parts

A text that is put together from two is decoded part by part: if the first is accepted, nothing that
comes after it changes what is read of it, and what comes after it is decoded as if it stood alone,
with the offset of a byte at fault counted from the start of the whole. Such a byte is in the text,
and is one of the first four after a part that is accepted.

The decoder goes over a list of bytes. A decoder that asks for one byte after the other by its
position (`decodeAt`) finds the same, and never asks for a byte that is not there.

* `decodeFrom_offset`: it makes no difference where a text starts.
* `decodeAt_append`: decoding by position.
* `decoding_in_parts`: the laws of the decoder.
-/

namespace TwoBus.Text

/-! ## Parts -/

/-- Where a text starts shows in the offset of a byte at fault, and nowhere else. -/
theorem decodeFrom_offset (offset : Nat) (bytes : List UInt8) :
    decodeFrom offset bytes = (decode bytes).mapError (offset + ·) := by
  obtain ⟨ss, rest, rfl, rfl | ⟨k, hstops⟩⟩ := exists_spelled_prefix bytes
  · rw [List.append_nil, decode, decodeFrom_spelled, decodeFrom_spelled]
    rfl
  · rw [decode, decodeFrom_spelled_stops offset ss hstops, decodeFrom_spelled_stops 0 ss hstops,
      Nat.zero_add, Nat.add_assoc]
    rfl

/-- What comes after an accepted text is decoded as if it stood alone. -/
theorem decode_append {a : List UInt8} {codes : List Nat} (h : decode a = .ok codes)
    (b : List UInt8) :
    decode (a ++ b) = ((decode b).mapError (a.length + ·)).map (codes ++ ·) := by
  obtain ⟨ss, rfl, rfl⟩ := decode_eq_ok_iff.mp h
  rw [decode, decodeFrom_spelled_append, decodeFrom_offset, Nat.zero_add]

/-! ## Bytes at fault -/

/-- A byte at fault is in the text, at most three bytes after a part that is accepted. -/
theorem exists_accepted_of_decode_eq_error {bytes : List UInt8} {k : Nat}
    (h : decode bytes = .error k) :
    k < bytes.length
      ∧ ∃ (a b : List UInt8) (codes : List Nat), bytes = a ++ b ∧ decode a = .ok codes
        ∧ a.length ≤ k ∧ k ≤ a.length + 3 := by
  obtain ⟨ss, rest, rfl, rfl | ⟨j, hstops⟩⟩ := exists_spelled_prefix bytes
  · rw [List.append_nil, decode, decodeFrom_spelled] at h
    cases h
  · rw [decode, decodeFrom_spelled_stops 0 ss hstops, Nat.zero_add] at h
    obtain rfl := Except.error.inj h
    have hlt := hstops.lt_length
    have hle := hstops.le_three
    refine ⟨?_, _, rest, _, rfl, decodeFrom_spelled 0 ss, Nat.le_add_right _ _, ?_⟩
    · rw [List.length_append]
      omega
    · omega

/-! ## Counting -/

/-- A byte that continues a spelling begins none. -/
theorem lead?_of_isContinuation {b : UInt8} (h : isContinuation b = true) : lead? b = none := by
  have hall : ∀ k < 256, isContinuation (.ofNat k) = true → lead? (.ofNat k) = none := by
    decide +kernel
  have hb := hall b.toNat b.toNat_lt
  rw [UInt8.ofNat_toNat] at hb
  exact hb h

theorem isContinuation_of_mem_tail {n code : Nat} {b : UInt8} (h : b ∈ tail n code) :
    isContinuation b = true := by
  induction n with
  | zero => cases h
  | succ n ih =>
    rw [tail, List.mem_cons] at h
    rcases h with rfl | hmem
    · exact (continuation_digit (Nat.mod_lt _ (by decide))).1
    · exact ih hmem

/-- Of the bytes of a spelling all but the first continue it. -/
theorem countP_bytes (s : Spelling) : s.bytes.countP (fun b => !isContinuation b) = 1 := by
  have hlead : isContinuation s.lead = false := by
    refine Bool.eq_false_iff.mpr fun hcontinues => ?_
    have hnone := s.lead?_lead
    rw [lead?_of_isContinuation hcontinues] at hnone
    cases hnone
  have htail : (tail s.tailLength s.code).countP (fun b => !isContinuation b) = 0 := by
    rw [List.countP_eq_zero]
    intro b hb
    rw [isContinuation_of_mem_tail hb]
    decide
  rw [Spelling.bytes, List.countP_cons, htail, hlead]
  rfl

/-- An accepted text has as many code points as bytes that continue none. -/
theorem length_of_decode {bytes : List UInt8} {codes : List Nat} (h : decode bytes = .ok codes) :
    codes.length = bytes.countP fun b => !isContinuation b := by
  obtain ⟨ss, rfl, rfl⟩ := decode_eq_ok_iff.mp h
  induction ss with
  | nil => rfl
  | cons s ss ih =>
    rw [List.map_cons, List.length_cons, ih (decodeFrom_spelled 0 ss), List.flatMap_cons,
      List.countP_append, countP_bytes, Nat.add_comm]

/-! ## Decoding by position -/

/-- Why decoding by position ends early. -/
inductive Interruption
  | malformed (offset : Nat)
  /-- A byte is asked for that is not there. -/
  | overrun (position : Nat)
  deriving DecidableEq, Repr

def byteAt (bytes : List UInt8) (position : Nat) : Except Interruption UInt8 :=
  match bytes[position]? with
  | some b => .ok b
  | none => .error (.overrun position)

/-- Add the payloads of the next continuation bytes to a code point. -/
def continuedAt (bytes : List UInt8) (position payload : Nat) : Nat → Except Interruption Nat
  | 0 => .ok payload
  | n + 1 => do
    let b ← byteAt bytes position
    if isContinuation b then
      continuedAt bytes (position + 1) (payload * 64 + (b &&& 0x3F).toNat) n
    else .error (.malformed position)

/-- The code points of a text from a position on. Whether the text is long enough for a spelling is
looked at before the bytes that continue it. -/
def decodeAt (bytes : List UInt8) (position : Nat) : Except Interruption (List Nat) :=
  if _h : position < bytes.length then do
    let lead ← byteAt bytes position
    match lead? lead with
    | none => .error (.malformed position)
    | some (payload, n) =>
      if bytes.length < position + (n + 1) then .error (.malformed position)
      else do
        let code ← continuedAt bytes (position + 1) payload n
        return code :: (← decodeAt bytes (position + (n + 1)))
  else .ok []
termination_by bytes.length - position

theorem byteAt_append (before : List UInt8) (b : UInt8) (rest : List UInt8) :
    byteAt (before ++ b :: rest) before.length = .ok b := by
  simp [byteAt]

/-- The continuation bytes are asked for only where they are. -/
theorem continuedAt_append (before bs rest : List UInt8) (payload : Nat) :
    continuedAt (before ++ (bs ++ rest)) before.length payload bs.length
      = (continued before.length payload bs).mapError .malformed := by
  induction bs generalizing before payload with
  | nil => rfl
  | cons b bs ih =>
    have hrest := ih (before ++ [b]) (payload * 64 + (b &&& 0x3F).toNat)
    rw [List.append_assoc, List.singleton_append, List.length_append,
      List.length_singleton] at hrest
    rw [List.length_cons, List.cons_append, continuedAt, byteAt_append, continued]
    show (if isContinuation b = true then _ else _) = _
    by_cases hb : isContinuation b = true
    · rw [if_pos hb, if_pos hb, hrest]
    · rw [if_neg hb, if_neg hb]
      rfl

/-- Where the text is long enough for a spelling, the bytes that continue it are read, and then what
comes after them. -/
theorem decodeAt_of_long {b : UInt8} {n payload : Nat} {bs : List UInt8}
    (h : lead? b = some (payload, n)) (hlong : n ≤ bs.length) (before : List UInt8) :
    decodeAt (before ++ b :: bs) before.length
      = ((continued (before.length + 1) payload (bs.take n)).mapError .malformed).bind fun code =>
          (decodeAt (before ++ b :: bs) (before.length + (n + 1))).map (code :: ·) := by
  have hread := continuedAt_append (before ++ [b]) (bs.take n) (bs.drop n) payload
  rw [List.take_append_drop, List.length_take_of_le hlong, List.append_assoc,
    List.singleton_append, List.length_append, List.length_singleton] at hread
  have hlength : (before ++ b :: bs).length = before.length + (bs.length + 1) := by
    rw [List.length_append, List.length_cons]
  conv => lhs; unfold decodeAt
  rw [dif_pos (by omega), byteAt_append]
  show (match lead? b with | none => _ | some (payload, n) => _) = _
  rw [h]
  show (if (before ++ b :: bs).length < before.length + (n + 1) then _ else _) = _
  rw [if_neg (by omega), hread]
  rfl

/-- What begins with no lead byte, or with one that announces more bytes than there are. -/
theorem decodeAt_of_not_long {b : UInt8} {bs : List UInt8}
    (h : ∀ payload n, lead? b = some (payload, n) → bs.length < n) (before : List UInt8) :
    decodeAt (before ++ b :: bs) before.length = .error (.malformed before.length) := by
  have hlength : (before ++ b :: bs).length = before.length + (bs.length + 1) := by
    rw [List.length_append, List.length_cons]
  unfold decodeAt
  rw [dif_pos (by omega), byteAt_append]
  show (match lead? b with | none => _ | some (payload, n) => _) = _
  cases hlead : lead? b with
  | none => rfl
  | some found =>
    have hshort := h found.1 found.2 hlead
    exact if_pos (by omega)

/-- What is decoded by position is what the decoder reads, at whatever position. -/
theorem decodeAt_append (before rest : List UInt8) :
    decodeAt (before ++ rest) before.length
      = (decodeFrom before.length rest).mapError .malformed := by
  -- by induction on how much is left to read
  induction hlength : rest.length using Nat.strongRecOn generalizing before rest with
  | _ length ih =>
    cases rest with
    | nil =>
      rw [List.append_nil, decodeAt, dif_neg (Nat.lt_irrefl _)]
      rfl
    | cons b bs =>
      cases hlead : lead? b with
      | none =>
        rw [decodeAt_of_not_long (by simp [hlead]), decodeFrom_of_no_lead hlead]
        rfl
      | some found =>
        obtain ⟨payload, n⟩ := found
        by_cases hshort : bs.length < n
        · rw [decodeAt_of_not_long (by simp [hlead, hshort]), decodeFrom_of_short hlead hshort]
          rfl
        · have hlong : n ≤ bs.length := Nat.not_lt.mp hshort
          have hless : (bs.drop n).length < length := by
            rw [← hlength, List.length_drop, List.length_cons]
            omega
          have hrest := ih _ hless (before ++ b :: bs.take n) (bs.drop n) rfl
          rw [List.append_assoc, List.cons_append, List.take_append_drop, List.length_append,
            List.length_cons, List.length_take_of_le hlong] at hrest
          rw [decodeAt_of_long hlead hlong, hrest]
          conv => rhs; rw [← List.take_append_drop n bs,
            decodeFrom_append hlead (List.length_take_of_le hlong)]
          cases continued (before.length + 1) payload (bs.take n) with
          | error k => rfl
          | ok code => cases decodeFrom (before.length + (n + 1)) (bs.drop n) <;> rfl

/-- Decoding by position asks for no byte that is not there. -/
theorem decodeAt_zero (bytes : List UInt8) :
    decodeAt bytes 0 = (decode bytes).mapError .malformed :=
  decodeAt_append [] bytes

/-! ## The laws of the decoder -/

/-- An accepted text may be continued: what comes after it is decoded as if it stood alone, with the
same code points or with the same byte at fault, counted from the start of the whole. Every text is
decoded to its end or to a byte at fault without a look past its end; a byte at fault is in the text
and at most three bytes after a part that is accepted; and an accepted text has as many code points
as bytes that do not continue a spelling. -/
theorem decoding_in_parts :
    (∀ (a : List UInt8) (codes : List Nat), decode a = .ok codes → ∀ b : List UInt8,
        (∀ codes' : List Nat, decode b = .ok codes' → decode (a ++ b) = .ok (codes ++ codes'))
          ∧ ∀ k : Nat, decode b = .error k → decode (a ++ b) = .error (a.length + k))
      ∧ (∀ bytes : List UInt8, decodeAt bytes 0 = (decode bytes).mapError .malformed)
      ∧ (∀ (bytes : List UInt8) (k : Nat), decode bytes = .error k →
        k < bytes.length
          ∧ ∃ (a b : List UInt8) (codes : List Nat), bytes = a ++ b ∧ decode a = .ok codes
            ∧ a.length ≤ k ∧ k ≤ a.length + 3)
      ∧ ∀ (bytes : List UInt8) (codes : List Nat), decode bytes = .ok codes →
        codes.length = bytes.countP fun b => !isContinuation b := by
  refine ⟨fun a codes h b => ⟨fun codes' hb => ?_, fun k hb => ?_⟩, decodeAt_zero,
    fun bytes k => exists_accepted_of_decode_eq_error, fun bytes codes => length_of_decode⟩
  · rw [decode_append h, hb]
    rfl
  · rw [decode_append h, hb]
    rfl

/-- A letter and a sign of three bytes. -/
def letterAndSign : List UInt8 := [0x41, 0xE2, 0x82, 0xAC]

/-- A letter, and a lead byte that another letter comes after. -/
def letterAndStray : List UInt8 := [0x42, 0xC3, 0x28]

/-- The byte at fault is the third of its part and the seventh of the whole, and the sign and the
letter before it are decoded in both. -/
theorem decoding_in_parts_interrupted :
    decode letterAndSign = .ok [0x41, 0x20AC]
      ∧ decode (letterAndSign ++ letterAndSign) = .ok [0x41, 0x20AC, 0x41, 0x20AC]
      ∧ decode letterAndStray = .error 2
      ∧ decode (letterAndSign ++ letterAndStray) = .error 6
      ∧ decodeAt letterAndStray 0 = .error (.malformed 2)
      ∧ 2 < letterAndStray.length
      ∧ (letterAndSign.countP fun b => !isContinuation b) = 2 := by
  obtain ⟨hparts, hposition, hfault, hcount⟩ := decoding_in_parts
  have hsign : decode letterAndSign = .ok [0x41, 0x20AC] := rfl
  have hstray : decode letterAndStray = .error 2 := rfl
  refine ⟨hsign, (hparts _ _ hsign _).1 _ hsign, hstray, (hparts _ _ hsign _).2 _ hstray, ?_,
    (hfault _ _ hstray).1, (hcount _ _ hsign).symm⟩
  rw [hposition, hstray]
  rfl

end TwoBus.Text
