import ShuangFa.Proofs.JdUdp

/-! # Searches for a product

A search names a product, and `strcmp` gives zero for strings that are equal. So the device answers
to every name but one: the wildcard, where the device has the wildcard as its own.
-/

namespace ShuangFa

open Memory Coding

/-- A search for the product of the device, for no product, or for every product. -/
def ForThisProduct (env : JdUdpEnvironment) (productuuid : CString) : Prop :=
  productuuid = env.jdProuuid ∨ productuuid.bytes = [] ∨ productuuid = literal "0"

/-- The document with the identity of the device is sent. -/
def AnswersIdentity (env : JdUdpEnvironment) (jdArgs : JdNVargs) (answer : JdAnswer) : Prop :=
  ∃ root, identity env jdArgs = some root ∧ answer = .sent (packetBuild env.cJson 2 root)

/-- A search is answered with the identity of the device if it is for its product, and with nothing
otherwise. -/
def AnswersOwnProduct (env : JdUdpEnvironment) (jdArgs : JdNVargs) (productuuid : CString)
    (answer : JdAnswer) : Prop :=
  (ForThisProduct env productuuid → AnswersIdentity env jdArgs answer) ∧
    (¬ ForThisProduct env productuuid → answer = .nothing)

/-- The feed id of the device ends, and the document fits into the receive buffer behind its heads.
-/
def IdentityFits (env : JdUdpEnvironment) (jdArgs : JdNVargs) : Prop :=
  ∃ root, identity env jdArgs = some root ∧
    sizeofCommonHeader + sizeofCmdHeader + (env.cJson.print root).bytes.length ≤ sizeofJdRcvBuffer

section Answers

variable {env : JdUdpEnvironment} {jdArgs : JdNVargs} {jDevice : CJson} {productuuid : CString}

theorem packetBuild_length (cJson : CJsonLibrary) (type : ℕ) (root : CJson) :
    (packetBuild cJson type root).length =
      sizeofCommonHeader + sizeofCmdHeader + (cJson.print root).bytes.length := by
  have ok : (ascii "OK".toList).length = 2 := rfl
  have heads : sizeofCommonHeader + sizeofCmdHeader = 19 := rfl
  simp only [packetBuild, List.length_append, bytesU32_length, List.length_singleton, ok, heads]
  omega

/-- The answer of a device whose identity fits. -/
theorem answersIdentity_iff : AnswersIdentity env jdArgs
    ((identity env jdArgs).elim .undefined (jdAnswer env 2)) ↔ IdentityFits env jdArgs := by
  rw [AnswersIdentity, IdentityFits]
  apply exists_congr
  intro root
  apply and_congr_right
  intro known
  rw [known, Option.elim_some, jdAnswer, ← packetBuild_length]
  constructor
  · intro sent
    split_ifs at sent with fits
    exact fits
  · exact fun fits => if_pos fits

theorem not_answersIdentity_nothing : ¬ AnswersIdentity env jdArgs .nothing := by
  rintro ⟨root, _, sent⟩
  cases sent

/-- The answer to a search is right for its product, unless this is the wildcard on both sides. -/
theorem searchAnswer_answersOwnProduct_iff
    (member : jDevice.valuestringAt "productuuid" = some productuuid) :
    AnswersOwnProduct env jdArgs productuuid (searchAnswer env jdArgs jDevice) ↔
      ForThisProduct env productuuid ∧
        ¬ (productuuid = literal "0" ∧ env.jdProuuid = literal "0") ∧ IdentityFits env jdArgs := by
  have answer : searchAnswer env jdArgs jDevice =
      if env.jdProuuid ≠ productuuid ∨ productuuid.bytes.getD 0 0 = 0 ∨ literal "0" ≠ productuuid then
        (identity env jdArgs).elim .undefined (jdAnswer env 2)
      else .nothing := by rw [searchAnswer, member]
  rw [answer, AnswersOwnProduct]
  split_ifs with replies
  · rw [answersIdentity_iff]
    constructor
    · rintro ⟨own, other⟩
      by_cases wanted : ForThisProduct env productuuid
      · refine ⟨wanted, ?_, own wanted⟩
        rintro ⟨rfl, same⟩
        rcases replies with differ | zero | differ
        · exact differ same
        · exact absurd zero (by decide)
        · exact differ rfl
      · exfalso
        have nothing := other wanted
        cases known : identity env jdArgs with
        | none =>
          rw [known] at nothing
          cases nothing
        | some root =>
          rw [known, Option.elim_some, jdAnswer] at nothing
          split_ifs at nothing
    · rintro ⟨wanted, _, fits⟩
      exact ⟨fun _ => fits, fun unwanted => absurd wanted unwanted⟩
  · rw [not_or, not_or, not_not, not_not] at replies
    obtain ⟨same, _, wildcard⟩ := replies
    constructor
    · rintro ⟨own, _⟩
      exact absurd (own (.inl same.symm)) not_answersIdentity_nothing
    · rintro ⟨_, apart, _⟩
      exact absurd ⟨wildcard.symm, same.trans wildcard.symm⟩ apart

end Answers

/-- A search in the first two minutes is answered as it should be if and only if it is for the
product of the device, the product is not the wildcard itself, and the identity fits. -/
theorem answersOwnProduct_iff {env : JdUdpEnvironment} {clock : ℕ} {rxMessage : View} {rLength : ℕ}
    {s : JdDevice} {jDevice : CJson} {productuuid : CString}
    (accepted : packetAnalyse env.cJson.parse rxMessage rLength = some (1, jDevice))
    (early : Provisioning clock s)
    (member : jDevice.valuestringAt "productuuid" = some productuuid) :
    AnswersOwnProduct env s.jdArgs productuuid (appSearchDevice env clock rxMessage rLength s).answer ↔
      ForThisProduct env productuuid ∧
        ¬ (productuuid = literal "0" ∧ env.jdProuuid = literal "0") ∧ IdentityFits env s.jdArgs := by
  have search : appSearchDevice env clock rxMessage rLength s = s.search env jDevice := by
    rw [appSearchDevice, accepted]
    dsimp only
    rw [if_pos rfl, if_pos early]
  rw [search]
  exact searchAnswer_answersOwnProduct_iff member

/-- A search for a product behind a digit and three zeros. -/
def searchDatagram (productuuid : String) : View :=
  .ofList (ascii "1000\x7b\"productuuid\":\"".toList ++ ascii productuuid.toList ++
    ascii "\"\x7d".toList)

/-- The document of a search. -/
def searchDocument (productuuid : String) : CJson :=
  .object [(literal "productuuid", .string (literal productuuid))]

/-- A device that is searched for with a document. -/
def searchEnvironment (productuuid : String) : JdUdpEnvironment where
  cJson := ⟨fun _ => some (searchDocument productuuid), fun _ => literal "\x7b\x7d"⟩
  jdProuuid := literal "5IUP6T"
  mac := literal "ACCF23000000"

theorem searchDatagram_accepted (productuuid : String) (rLength : ℕ) :
    packetAnalyse (searchEnvironment productuuid).cJson.parse (searchDatagram productuuid) rLength =
      some (1, searchDocument productuuid) := by
  have digit : searchDatagram productuuid 0 = 49 := rfl
  rw [packetAnalyse_digit _ digit ⟨rfl, rfl, rfl⟩]
  rfl

/-- A search for the product of the device. -/
theorem answersOwnProduct_own : AnswersOwnProduct (searchEnvironment "5IUP6T") .zero (literal "5IUP6T")
    (appSearchDevice (searchEnvironment "5IUP6T") 1000 (searchDatagram "5IUP6T") 28 .fresh).answer :=
  (answersOwnProduct_iff (s := .fresh) (searchDatagram_accepted "5IUP6T" 28) ⟨by decide, rfl⟩
    rfl).mpr ⟨.inl rfl, by decide, _, rfl, by decide⟩

/-- A search for another product. -/
theorem answersOwnProduct_fails : ¬ ∀ (env : JdUdpEnvironment) (clock : ℕ) (rxMessage : View)
    (rLength : ℕ) (s : JdDevice) (jDevice : CJson) (productuuid : CString),
    packetAnalyse env.cJson.parse rxMessage rLength = some (1, jDevice) → Provisioning clock s →
      jDevice.valuestringAt "productuuid" = some productuuid →
        AnswersOwnProduct env s.jdArgs productuuid
          (appSearchDevice env clock rxMessage rLength s).answer := by
  intro all
  have member : (searchDocument "other").valuestringAt "productuuid" = some (literal "other") := rfl
  have answers := all (searchEnvironment "other") 1000 (searchDatagram "other") 27 .fresh _ _
    (searchDatagram_accepted "other" 27) ⟨by decide, rfl⟩ member
  have unwanted : ¬ ForThisProduct (searchEnvironment "other") (literal "other") := by
    unfold ForThisProduct
    decide
  have nothing := answers.2 unwanted
  rw [appSearchDevice, searchDatagram_accepted] at nothing
  exact absurd nothing (by decide)

end ShuangFa
