import HardwareSigner.Proofs.Ledger.KeyReplies
import HardwareSigner.Proofs.Ledger.Lifecycle
/-!
Signatures that a Ledger gives.  A request for a signature passes the sixty-four bytes of the answer
on as they came, and behind them the id that the answer starts with, counted from 0.  Ids that the
answer counts in another way than from 0 or from 27 are passed on too.
-/

namespace HardwareSigner
variable {τ : Type}

namespace Ecdsa

/-- An id is brought to 0 or 1 if it is one of these already, or counted from 27. -/
theorem normalizeRecoveryId_low_iff (v : UInt8) :
    (normalizeRecoveryId v = 0 ∨ normalizeRecoveryId v = 1) ↔ v = 0 ∨ v = 1 ∨ v = 27 ∨ v = 28 := by
  have named : (0 : UInt8).toNat = 0 ∧ (1 : UInt8).toNat = 1 ∧ (27 : UInt8).toNat = 27 ∧
    (28 : UInt8).toNat = 28 := ⟨rfl, rfl, rfl, rfl⟩
  rw [normalizeRecoveryId]
  simp only [← UInt8.toNat_inj]
  split
  · rename_i high
    have bound : 27 ≤ v.toNat := UInt8.le_iff_toNat_le.mp high
    have less : (v - 27).toNat = v.toNat - 27 := UInt8.toNat_sub_of_le v 27 high
    omega
  · rename_i low
    have bound : ¬ 27 ≤ v.toNat := fun le => low (UInt8.le_iff_toNat_le.mpr le)
    omega

end Ecdsa

namespace Ledger
open Apdu (Command Response)

/-- The request is made, and what the device answers is a success with this payload. -/
def Answers (t : Transport τ) (account : Account) (typedData : TypedData) (l : Ledger) (s : τ)
    (payload : Bytes) : Prop :=
  ∃ version command response, openVersion? t l s = some version ∧
    AppVersion.Le ⟨1, 5, 0⟩ version ∧
    signCommand (l.signingPath account) typedData = .ok command ∧
    (t.exchange command s).1 = .ok response ∧ response.statusWord = 0x9000 ∧
    response.data = payload

theorem signatureOfReply_ok_iff {payload signature : Bytes} :
    signatureOfReply payload = .ok signature ↔ ∃ v rs, payload = v :: rs ∧ rs.length = 64 ∧
      signature = rs ++ [Ecdsa.normalizeRecoveryId v] := by
  cases payload with
  | nil => exact iff_of_false nofun nofun
  | cons v rs =>
      rw [signatureOfReply]
      by_cases whole : rs.length = 64
      · rw [if_neg (not_not.mpr whole)]
        constructor
        · rintro ⟨⟩
          exact ⟨v, rs, rfl, whole, rfl⟩
        · rintro ⟨_, _, ⟨⟩, -, rfl⟩
          rfl
      · rw [if_pos whole]
        refine iff_of_false nofun ?_
        rintro ⟨_, _, ⟨⟩, size, -⟩
        exact whole size

section
variable {t : Transport τ} {account : Account} {typedData : TypedData} {l : Ledger} {s : τ}

theorem send_fst (c : Command) :
    (t.send c s).1 = (t.exchange c s).1.bind Response.checked := by
  rw [Transport.send, Action.andThen]
  rcases t.exchange c s with ⟨e | response, s'⟩ <;> rfl

theorem sign_of_answers {payload : Bytes} (answers : Answers t account typedData l s payload) :
    (sign t account typedData (l, s)).1 = signatureOfReply payload := by
  obtain ⟨version, command, response, known, recent, made, answer, success, rfl⟩ := answers
  have signs : version.signsTypedData = true :=
    (AppVersion.isGE_compare_iff version .minTypedData).mpr recent
  have read : (t.send command s).1 = .ok response.data := by
    rw [send_fst]
    exact bind_checked_ok_iff.mpr ⟨response, answer, success, rfl⟩
  simp only [sign, known, signs, if_true, made]
  rcases sending : t.send command s with ⟨e | reply, s'⟩ <;> rw [sending] at read <;> cases read
  rfl

theorem answers_of_sign {signature : Bytes}
    (signed : (sign t account typedData (l, s)).1 = .ok signature) :
    ∃ payload, Answers t account typedData l s payload ∧
      signatureOfReply payload = .ok signature := by
  have call := sign_call t account typedData l s
  generalize sign t account typedData (l, s) = r at call signed
  cases call with
  | closed known => cases signed
  | outdated known signs => cases signed
  | unmade known signs made => cases signed
  | unanswered known signs made sent => cases signed
  | @answered version command reply s' known signs made sent =>
      have read : (t.exchange command s).1.bind Response.checked = .ok reply := by
        rw [← send_fst, sent]
      obtain ⟨response, answer, success, data⟩ := bind_checked_ok_iff.mp read
      exact ⟨reply, ⟨version, command, response, known,
        (AppVersion.isGE_compare_iff version .minTypedData).mp signs, made, answer, success, data⟩,
        signed⟩

end

/-- A signature comes out just when the request is answered with sixty-five bytes: the last
sixty-four of them, and behind them the first, less 27 if it is at least that.  So the last byte is
0 or 1 for the ids 0, 1, 27 and 28, and for no others. -/
theorem signature_of_answer (t : Transport τ) (account : Account) (typedData : TypedData)
    (l : Ledger) (s : τ) :
    (∀ signature, (sign t account typedData (l, s)).1 = .ok signature ↔
      ∃ v rs, Answers t account typedData l s (v :: rs) ∧ rs.length = 64 ∧
        signature = rs ++ [if v ≥ 27 then v - 27 else v]) ∧
    (∀ signature v rs, (sign t account typedData (l, s)).1 = .ok signature →
      Answers t account typedData l s (v :: rs) →
        signature.length = 65 ∧ signature.take 64 = rs ∧
        ((signature.getLast? = some 0 ∨ signature.getLast? = some 1) ↔
          v = 0 ∨ v = 1 ∨ v = 27 ∨ v = 28)) := by
  constructor
  · intro signature
    constructor
    · intro signed
      obtain ⟨payload, answers, read⟩ := answers_of_sign signed
      obtain ⟨v, rs, rfl, whole, rfl⟩ := signatureOfReply_ok_iff.mp read
      exact ⟨v, rs, answers, whole, rfl⟩
    · rintro ⟨v, rs, answers, whole, rfl⟩
      exact (sign_of_answers answers).trans (signatureOfReply_ok_iff.mpr ⟨v, rs, rfl, whole, rfl⟩)
  · intro signature v rs signed answers
    obtain ⟨_, _, ⟨⟩, whole, rfl⟩ :=
      signatureOfReply_ok_iff.mp ((sign_of_answers answers).symm.trans signed)
    refine ⟨by rw [List.length_append, whole, List.length_singleton], List.take_left' whole, ?_⟩
    rw [List.getLast?_concat, Option.some.injEq, Option.some.injEq]
    exact Ecdsa.normalizeRecoveryId_low_iff v

/-- An id counted as a chain of id 1 does is not brought to 0 or 1. -/
theorem foreign_recovery_id_is_passed_on :
    let script : Script := ⟨false, [], [.ok [0, 1, 9, 20, 0x90, 0x00],
      .ok (37 :: List.replicate 64 7 ++ [0x90, 0x00])], [], []⟩
    let types := Json.object [("Note", .array [.object [("name", .string "memo"),
      ("type", .string "string")]])]
    let note := TypedData.ofParts .empty types "Note" (.object [("memo", .string "hi")])
    let account : Account := ⟨⟨Secp256k1.basePoint⟩, .zero, .ethereum 0⟩
    let opened := openChannel Script.transport (closed "Nano", script)
    opened.1 = .ok () ∧ (sign Script.transport account note opened.2).1 =
      .ok (List.replicate 64 7 ++ [10]) := by
  decide +kernel

end Ledger

end HardwareSigner
