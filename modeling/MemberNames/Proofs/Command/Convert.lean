import MemberNames.Command.Convert
import MemberNames.Proofs.Name.Principal
import MemberNames.Proofs.Name.Refusal
import MemberNames.Proofs.Text.Pasted

/-!
# Converting there and back

Under the rules of a deployment, encoding accepts the names that normalizing accepts, and decoding
what encoding has written gives what normalizing writes. Both print the canonical text of a name and
neither reads it, so that names take part whose canonical text is not read back.

* `Command.normalize_of_ok`, `Command.encode_of_ok`, `Command.decode_of_ok`: accepted inputs
* `Command.code_of_error`: rejected inputs
* `Command.decode_encode`: there and back
-/

namespace MemberNames
namespace Command

variable {rules : Rules} {name : Text}

/-! ## Single reports -/

/-- The outcome on an accepted input: one line. -/
theorem outcome_of_accepted (text : Report → Text) (input : Text) (n : Name) (der : Option Text) :
    outcome .text text [⟨input, .accepted n der⟩] =
      ⟨⟨text ⟨input, .accepted n der⟩ ++ ['\n'], []⟩, 0⟩ := by
  simp [outcome, Output.concat, Report.print, Report.isAccepted, Report.exitCode]

theorem outcome_of_rejected (text : Report → Text) (input reason : Text) :
    outcome .text text [⟨input, .rejected reason⟩] =
      ⟨⟨[], text ⟨input, .rejected reason⟩ ++ ['\n']⟩, 1⟩ := by
  simp [outcome, Output.concat, Report.print, Report.isAccepted, Report.exitCode]

/-! ## Accepted and rejected inputs -/

theorem normalize_of_ok {n : Name} (h : Name.parseWith name rules = .ok n) :
    normalize [name] rules .text = ⟨⟨n.canonical ++ ['\n'], []⟩, 0⟩ := by
  rw [normalize, List.map_singleton, h]
  exact outcome_of_accepted normalizeText name n none

theorem encode_of_ok {n : Name} {der : Octets} (h : Name.parseWith name rules = .ok n)
    (hDer : n.toDer = .ok der) :
    encode name rules .text = ⟨⟨Hex.encode der ++ ['\n'], []⟩, 0⟩ := by
  rw [encode, encodeReport, h]
  simp only [hDer]
  exact outcome_of_accepted encodeText name n (some (Hex.encode der))

theorem decode_of_ok {hex : Text} {octets : Octets} {n : Name} (hHex : Hex.read hex = .ok octets)
    (h : Name.fromDerWith octets rules = .ok n) :
    decode hex rules .text = ⟨⟨n.canonical ++ ['\n'], []⟩, 0⟩ := by
  rw [decode, decodeReport, hHex]
  simp only [h]
  exact outcome_of_accepted decodeText hex n none

theorem code_of_error {e : NameError} (h : Name.parseWith name rules = .error e) :
    (normalize [name] rules .text).code = 1 ∧ (encode name rules .text).code = 1 := by
  rw [normalize, encode, encodeReport, List.map_singleton, h]
  exact ⟨congrArg Outcome.code (outcome_of_rejected normalizeText name e.message),
    congrArg Outcome.code (outcome_of_rejected encodeText name e.message)⟩

/-! ## There and back -/

/-- Encoding and normalizing end alike, with success on every name, and decoding what was encoded
gives what was normalized, with white space around the digits and in whatever letter case. -/
theorem decode_encode (h : rules.IsDeployable) (name : Text) :
    let encoded := encode name rules .text
    let normalized := normalize [name] rules .text
    encoded.code = normalized.code ∧
      (encoded.code = 0 ↔ ∃ n, Name.parseWith name rules = .ok n) ∧
      (encoded.code = 0 →
        decode encoded.output.out rules .text = ⟨⟨normalized.output.out, []⟩, 0⟩ ∧
          ∃ hex, encoded.output.out = hex ++ ['\n'] ∧
            ∀ lead digits trail, (∀ c ∈ lead, Unicode.isWhiteSpace c) →
              (∀ c ∈ trail, Unicode.isWhiteSpace c) → Text.lower digits = Text.lower hex →
                decode (lead ++ digits ++ trail) rules .text =
                  ⟨⟨normalized.output.out, []⟩, 0⟩) := by
  intro encoded normalized
  cases hName : Name.parseWith name rules with
  | error e =>
      rcases code_of_error hName with ⟨hNormalized, hEncoded⟩
      have hNotZero : encoded.code ≠ 0 := by
        rw [hEncoded]
        decide
      refine ⟨hEncoded.trans hNormalized.symm, ?_, fun hZero => absurd hZero hNotZero⟩
      exact iff_of_false hNotZero (by simp)
  | ok n =>
      have hValid : n.withRules rules = .ok n := Name.withRules_of_parseWith hName
      have hSatisfies : n.Satisfies rules := (Name.withRules_eq_ok_iff.1 hValid).2
      rcases Name.exists_toDer_of_size_country hSatisfies
        (h.size_country hSatisfies.country) with ⟨der, hDer⟩
      have hEncoded : encoded = ⟨⟨Hex.encode der ++ ['\n'], []⟩, 0⟩ := encode_of_ok hName hDer
      have hNormalized : normalized = ⟨⟨n.canonical ++ ['\n'], []⟩, 0⟩ := normalize_of_ok hName
      rw [hEncoded, hNormalized]
      have hDecode : ∀ lead digits trail, (∀ c ∈ lead, Unicode.isWhiteSpace c) →
          (∀ c ∈ trail, Unicode.isWhiteSpace c) →
            Text.lower digits = Text.lower (Hex.encode der) →
              decode (lead ++ digits ++ trail) rules .text =
                ⟨⟨n.canonical ++ ['\n'], []⟩, 0⟩ := by
        intro lead digits trail hLead hTrail hDigits
        rw [Hex.lower_encode] at hDigits
        exact decode_of_ok (Hex.read_of_lower_eq hLead hTrail hDigits)
          (Name.fromDerWith_of_toDer hValid hDer)
      refine ⟨rfl, iff_of_true rfl ⟨n, rfl⟩, fun _ => ⟨?_, Hex.encode der, rfl, hDecode⟩⟩
      -- The newline at the end is white space.
      exact hDecode [] (Hex.encode der) ['\n'] (List.forall_mem_nil _)
        (List.forall_mem_singleton.2 rfl) rfl

/-- Literal quotes and a newline in values. -/
theorem decode_encode_literal_quotes :
    let name : Text := "O=\"\\\"JP\\\"\",L=\"a\n\",C=DE".toList
    Rules.standard.IsDeployable ∧ (encode name .standard .text).code = 0 ∧
      ∃ hex, (encode name .standard .text).output.out = hex ++ ['\n'] ∧
        decode (['\t'] ++ hex ++ ['\u3000']) .standard .text =
          ⟨⟨(normalize [name] .standard .text).output.out, []⟩, 0⟩ := by
  intro name
  have hDeployable : Rules.standard.IsDeployable := .inl rfl
  have hCode : (encode name .standard .text).code = 0 := by decide +kernel
  rcases decode_encode hDeployable name with ⟨-, -, hBack⟩
  rcases hBack hCode with ⟨-, hex, hHex, hDecode⟩
  exact ⟨hDeployable, hCode, hex, hHex, hDecode ['\t'] hex ['\u3000']
    (List.forall_mem_singleton.2 rfl) (List.forall_mem_singleton.2 rfl) rfl⟩

end Command
end MemberNames
