import ShuangFa.Model.JdService

/-! # Commands that are handled to their end

`JDCmdProcess` checks nothing of what the cloud sends. A command is handled without an undefined
step if its text is a document, every member that its code asks for is there with the type that is
read, and the answers fit into `ssl_tx`.
-/

namespace ShuangFa

open Memory Coding Machine

/-- The text of an answer, whose strings end, with room for its zero. -/
def FitsSslTx (text : Option (List UInt8)) : Prop :=
  ∃ answer, text = some answer ∧ answer.length < sizeofSslTx

/-- A value of one of the two types that `current_value` is read from. -/
def IsControlValue : CJson → Prop
  | .string _ => True
  | .number _ _ => True
  | _ => False

/-- An item of `control` with its stream and its value; a stream that is not known needs no type. -/
def ItemComplete (pItem : CJson) : Prop :=
  ∃ sKey pTmp, pItem.valuestringAt "stream_id" = some sKey ∧
    pItem.getObjectItem "current_value" = some pTmp ∧
    (downCmdType sKey ≠ none → IsControlValue pTmp)

def ControlComplete (env : JdEnvironment) (jdArgs : JdNVargs) (pRoot : CJson) : Prop :=
  ∃ pJCon pJatt, pRoot.getObjectItem "control" = some pJCon ∧
    (∀ pItem ∈ pJCon.child, ItemComplete pItem) ∧ pRoot.getObjectItem "attribute" = some pJatt ∧
    FitsSslTx (controlResponseText jdArgs (env.cJson.print pJatt))

def UpgradeComplete (env : JdEnvironment) (jdArgs : JdNVargs) (pRoot : CJson) : Prop :=
  ∃ uPdate firmVersion serial firmUrl sessionId,
    pRoot.getObjectItem "update" = some uPdate ∧
    uPdate.valueintAt "firm_version" = some firmVersion ∧ pRoot.valueintAt "serial" = some serial ∧
    uPdate.valuestringAt "firm_url" = some firmUrl ∧
    pRoot.valuestringAt "session_id" = some sessionId ∧
    FitsSslTx (sslUpgradeText jdArgs serial) ∧
    FitsSslTx (upgradeResponseText jdArgs firmVersion (upgradeResult env firmUrl) sessionId)

/-- A document with a code, and with what the code asks for. -/
def CommandComplete (env : JdEnvironment) (jdArgs : JdNVargs) (pRoot : CJson) : Prop :=
  ∃ codeId, pRoot.valueintAt "code" = some codeId ∧
    (codeId = 1005 → UpgradeComplete env jdArgs pRoot) ∧
    (codeId = 1002 → ControlComplete env jdArgs pRoot)

section Steps

variable {env : JdEnvironment} {jdArgs : JdNVargs} {pRoot pItem : CJson}
  {text : Option (List UInt8)} {answer : List UInt8}

theorem sslTx?_eq_some_iff :
    sslTx? text = some answer ↔ text = some answer ∧ answer.length < sizeofSslTx := by
  rw [sslTx?, Option.bind_eq_some_iff]
  constructor
  · rintro ⟨found, formatted, fits⟩
    split_ifs at fits with room
    · cases fits
      rw [terminated, List.length_append] at room
      exact ⟨formatted, room⟩
  · rintro ⟨formatted, fits⟩
    refine ⟨answer, formatted, if_pos ?_⟩
    rw [terminated, List.length_append]
    exact fits

/-- A value is assigned for strings and numbers only. -/
theorem currentValue_eq_some_iff (beforeTable : View) (pTmp : CJson) :
    (∃ value, currentValue beforeTable pTmp = some value) ↔ IsControlValue pTmp := by
  cases pTmp with
  | string valuestring => exact ⟨fun _ => trivial, fun _ => ⟨_, rfl⟩⟩
  | number valueint valuedouble => exact ⟨fun _ => trivial, fun _ => ⟨_, rfl⟩⟩
  | null | false | true | array | object =>
    constructor
    · rintro ⟨value, assigned⟩
      cases assigned
    · exact False.elim

/-- Whether anything is sent or not, a packet needs nothing else than its value. -/
theorem completes_jsonToBinary (cmd : JdsmartDownCmd) :
    (jsonToBinary cmd).Completes ↔
      (downCmdType cmd.streamId ≠ none → ∃ value, cmd.value = some value) := by
  rw [jsonToBinary]
  cases downCmdType cmd.streamId with
  | none => exact ⟨fun _ known => absurd rfl known, fun _ => Attempt.completes_pure ()⟩
  | some type =>
    dsimp only
    rw [Attempt.completes_check_bind]
    constructor
    · rintro ⟨value, assigned, _⟩ _
      exact ⟨value, assigned⟩
    · intro assigned
      obtain ⟨value, assigned⟩ := assigned (Option.some_ne_none type)
      refine ⟨value, assigned, ?_⟩
      split
      · exact Attempt.completes_pure ()
      · exact Attempt.completes_emit _

theorem completes_controlItem (beforeTable : View) :
    (controlItem beforeTable pItem).Completes ↔ ItemComplete pItem := by
  simp only [controlItem, Attempt.completes_check_bind, completes_jsonToBinary,
    currentValue_eq_some_iff, ItemComplete, exists_and_left]

theorem completes_controlCommand :
    (controlCommand env jdArgs pRoot).Completes ↔ ControlComplete env jdArgs pRoot := by
  rw [controlCommand, Attempt.completes_check_bind]
  constructor
  · rintro ⟨pJCon, control, done⟩
    obtain ⟨value, loop, rest⟩ := Attempt.completes_bind.mp done
    simp only [Attempt.completes_check_bind, sslTx?_eq_some_iff] at rest
    obtain ⟨pJatt, attributes, response, fits, _⟩ := rest
    refine ⟨pJCon, pJatt, control, ?_, attributes, response, fits⟩
    intro pItem member
    exact (completes_controlItem _).mp (Attempt.completes_forEach.mp ⟨value, loop⟩ pItem member)
  · rintro ⟨pJCon, pJatt, control, items, attributes, response, fits⟩
    have loop : (Attempt.forEach (controlItem env.beforeTable) pJCon.child).Completes :=
      Attempt.completes_forEach.mpr fun pItem member =>
        (completes_controlItem _).mpr (items pItem member)
    obtain ⟨value, loop⟩ := loop
    refine ⟨pJCon, control, Attempt.completes_bind.mpr ⟨value, loop, ?_⟩⟩
    simp only [Attempt.completes_check_bind, sslTx?_eq_some_iff]
    exact ⟨pJatt, attributes, response, fits, Attempt.completes_emit _⟩

theorem completes_jdsslAppUpgrade :
    (jdsslAppUpgrade env jdArgs pRoot).Completes ↔ UpgradeComplete env jdArgs pRoot := by
  simp only [jdsslAppUpgrade, Attempt.completes_check_bind, Attempt.completes_emit_bind,
    sslTx?_eq_some_iff]
  constructor
  · rintro ⟨uPdate, update, fwVersion, version, serial, number, request, request_fits, firmUrl, url,
      firmVersion, version_again, sessionId, session, response, response_fits, _⟩
    obtain rfl := Option.some.inj (version.symm.trans version_again)
    exact ⟨uPdate, fwVersion, serial, firmUrl, sessionId, update, version, number, url, session,
      ⟨request, request_fits⟩, response, response_fits⟩
  · rintro ⟨uPdate, firmVersion, serial, firmUrl, sessionId, update, version, number, url, session,
      ⟨request, request_fits⟩, response, response_fits⟩
    refine ⟨uPdate, update, firmVersion, version, serial, number, request, request_fits, firmUrl, url,
      firmVersion, version, sessionId, session, response, response_fits, ?_⟩
    split
    · exact ⟨(), rfl⟩
    · exact ⟨(), rfl⟩

theorem completes_jdCmdDispatch (codeId : Int32) :
    (jdCmdDispatch env jdArgs codeId pRoot).Completes ↔
      (codeId = 1005 → UpgradeComplete env jdArgs pRoot) ∧
        (codeId = 1002 → ControlComplete env jdArgs pRoot) := by
  have other (upgrade : codeId ≠ 1005) (control : codeId ≠ 1002) :
      (codeId = 1005 → UpgradeComplete env jdArgs pRoot) ∧
        (codeId = 1002 → ControlComplete env jdArgs pRoot) :=
    ⟨fun same => absurd same upgrade, fun same => absurd same control⟩
  rw [jdCmdDispatch]
  split_ifs with heartbeat response upgrade local_upgrade control
  · subst heartbeat
    exact iff_of_true (Attempt.completes_emit _) (other (by decide) (by decide))
  · subst response
    exact iff_of_true (Attempt.completes_pure _) (other (by decide) (by decide))
  · subst upgrade
    rw [completes_jdsslAppUpgrade]
    exact ⟨fun complete => ⟨fun _ => complete, fun same => absurd same (by decide)⟩,
      fun complete => complete.1 rfl⟩
  · subst local_upgrade
    exact iff_of_true (Attempt.completes_pure _) (other (by decide) (by decide))
  · subst control
    rw [completes_controlCommand]
    exact ⟨fun complete => ⟨fun same => absurd same (by decide), fun _ => complete⟩,
      fun complete => complete.2 rfl⟩
  · exact iff_of_true (Attempt.completes_pure _) (other upgrade control)

end Steps

/-- A command is handled without an undefined step if and only if its text is a document with what
its code asks for. -/
theorem jdCmdProcess_completes_iff (env : JdEnvironment) (jdArgs : JdNVargs) (pBuf : View) :
    (jdCmdProcess env jdArgs pBuf).Completes ↔
      ∃ pRoot, env.cJson.parse pBuf = some pRoot ∧ CommandComplete env jdArgs pRoot := by
  simp only [jdCmdProcess, Attempt.completes_check_bind, completes_jdCmdDispatch, CommandComplete]

/-- A text that is no document. -/
theorem jdCmdProcess_completes_fails : ¬ ∀ (env : JdEnvironment) (jdArgs : JdNVargs) (text : CString),
    text.bytes.length ≤ 599 →
      (jdCmdProcess env jdArgs (.ofList (terminated text.bytes))).Completes := by
  intro all
  obtain ⟨value, done⟩ := all ⟨⟨fun _ => none, fun _ => literal "null"⟩, fun _ => (0, 0), fun _ => 1,
    fun _ => 0⟩ .zero (literal "x") (by decide)
  cases done

end ShuangFa
