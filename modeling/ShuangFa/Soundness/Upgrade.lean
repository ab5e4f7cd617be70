import ShuangFa.Soundness.Firmware

/-! # Upgrades of the JD firmware

An upgrade is whole if every read of the body up to its end and every write of a piece succeeds, the
pieces lie one behind the other, and the update is completed. `Httpc_get` looks at none of the writes,
takes a read that fails for the end of the body, and leaves `dl_status` alone where it fails before the
download.
-/

namespace ShuangFa

open Memory Coding Machine

/-- The reads of the body, with the one that ends it. -/
def bodyReads : List HttpRead → List HttpRead
  | [] => []
  | read :: reads => if 0 < read.readSize then read :: bodyReads reads else [read]

/-- A download of all of the body. -/
structure CompleteDownload (sdk : OtaSdk) (calls : List OtaCall) : Prop where
  read : ∀ read ∈ bodyReads sdk.reads, 0 ≤ read.readSize
  placed : calls.filterMap OtaCall.write? = placed 0 (pieces sdk.reads)
  written : ∀ piece ∈ pieces sdk.reads, 0 ≤ piece.written
  completed : .hfupdateComplete (bodyLength sdk.reads) ∈ calls ∧ sdk.completed = hfSuccess

/-- The new version is stored, or the device resets. -/
def JdEffect.Installs : JdEffect → Prop
  | hffileUserbinWrite _ _ => True
  | hfsysReset => True
  | _ => False

/-- `Httpc_get` comes to its end with `dl_status` assigned, and says that the upgrade is right after a
complete download only; and only then `JDssl_APP_upgrade` installs anything. -/
def UpgradesWhole (sdk : OtaSdk) (purl : CString) (sslTx : FixedBuffer sizeofSslTx) : Prop :=
  ∃ rv dlStatus, (httpcGet sdk purl sslTx).result = some (rv, dlStatus) ∧ dlStatus ≠ none ∧
    (rv = upgradeOk → CompleteDownload sdk (httpcGet sdk purl sslTx).effects) ∧
    ∀ env jdArgs pRoot uPdate stale, pRoot.getObjectItem "update" = some uPdate →
      uPdate.valuestringAt "firm_url" = some purl → env.httpcGet purl = (rv, dlStatus.getD stale) →
        ∀ effect ∈ (jdsslAppUpgrade env jdArgs pRoot).effects, effect.Installs →
          rv = upgradeOk ∧ CompleteDownload sdk (httpcGet sdk purl sslTx).effects

/-- An address without a signature; or one that fits, calls that succeed in front of the download, a
body whose length is an `int`, and an update that fails or reads and writes that succeed. -/
def DownloadSucceeds (sdk : OtaSdk) (purl : CString) : Prop :=
  ∀ head, strstr signatureKey purl.bytes = some head →
    SignatureFits purl.bytes (head + 10) ∧ sdk.SetUp ∧ bodyLength sdk.reads < 2 ^ 31 ∧
      (sdk.completed = hfSuccess → (∀ read ∈ bodyReads sdk.reads, 0 ≤ read.readSize) ∧
        ∀ piece ∈ pieces sdk.reads, 0 ≤ piece.written)

section Installing

variable {env : JdEnvironment} {jdArgs : JdNVargs} {pRoot uPdate : CJson} {purl : CString}
  {effect : JdEffect}

theorem rv_of_upgradeResult (ok : upgradeResult env purl = upgradeOk) :
    (env.httpcGet purl).1 = upgradeOk := by
  rw [upgradeResult] at ok
  split at ok
  · rename_i failed
    rw [failed] at ok
    exact absurd ok (by decide)
  · exact ok

/-- Something is installed only if the upgrade was right. -/
theorem upgradeOk_of_installs (update : pRoot.getObjectItem "update" = some uPdate)
    (url : uPdate.valuestringAt "firm_url" = some purl)
    (member : effect ∈ (jdsslAppUpgrade env jdArgs pRoot).effects) (installs : effect.Installs) :
    (env.httpcGet purl).1 = upgradeOk := by
  simp only [jdsslAppUpgrade, update, url, Attempt.check_bind, Attempt.mem_effects_check_bind,
    Attempt.mem_effects_emit_bind] at member
  obtain ⟨fwVersion, _, serial, _, request, _, rest⟩ := member
  rcases rest with rfl | rfl | ⟨firmVersion, _, sessionId, _, response, _, rfl | last⟩
  · cases installs
  · cases installs
  · cases installs
  · split at last
    · rename_i stored
      exact rv_of_upgradeResult stored.2
    · obtain rfl := List.mem_singleton.mp last
      cases installs

end Installing

/-- A download of an update is complete if all its calls succeed. -/
theorem completeDownload_request {sdk : OtaSdk} (setUp : sdk.SetUp)
    (counted : bodyLength sdk.reads < 2 ^ 31) (completed : sdk.completed = hfSuccess)
    (read : ∀ read ∈ bodyReads sdk.reads, 0 ≤ read.readSize)
    (written : ∀ piece ∈ pieces sdk.reads, 0 ≤ piece.written) :
    CompleteDownload sdk (httpcRequest sdk []).effects := by
  obtain ⟨writes, completes⟩ := httpcDownload_effects counted
  rw [(httpcRequest_of_setUp setUp []).2]
  exact ⟨read, (List.filterMap_append ..).trans writes, written,
    List.mem_append_right _ completes, completed⟩

/-- An upgrade is whole if and only if the address has no signature, or everything that the download
does not look at succeeds. -/
theorem upgradesWhole_iff (sdk : OtaSdk) (purl : CString) (sslTx : FixedBuffer sizeofSslTx) :
    UpgradesWhole sdk purl sslTx ↔ DownloadSucceeds sdk purl := by
  constructor
  · rintro ⟨rv, dlStatus, result, assigned, whole, _⟩ head found
    have fits : SignatureFits purl.bytes (head + 10) := by
      by_contra outside
      rw [httpcGet_outside found outside] at result
      cases result
    rw [httpcGet_signed found fits] at result whole
    have setUp : sdk.SetUp := by
      by_contra failure
      rw [httpcRequest_result_of_not_setUp failure] at result
      cases result
      exact assigned rfl
    have counted : bodyLength sdk.reads < 2 ^ 31 := by
      by_contra full
      rw [(httpcRequest_of_setUp setUp []).1, httpcDownload_result, if_neg full] at result
      cases result
    refine ⟨fits, setUp, counted, fun completed => ?_⟩
    rw [(httpcRequest_of_setUp setUp []).1, httpcDownload_result, if_pos counted, completed] at result
    cases result
    have complete := whole rfl
    exact ⟨complete.read, complete.written⟩
  · intro succeeds
    rcases found : strstr signatureKey purl.bytes with _ | head
    · rw [UpgradesWhole, httpcGet_unsigned found]
      refine ⟨-1, some downloadFail, rfl, Option.some_ne_none _, fun ok => absurd ok (by decide), ?_⟩
      intro env jdArgs pRoot uPdate stale update url result effect member installs
      have ok := upgradeOk_of_installs update url member installs
      rw [result] at ok
      exact absurd ok (show (-1 : Int32) ≠ upgradeOk by decide)
    · obtain ⟨fits, setUp, counted, looked⟩ := succeeds head found
      have result := (httpcRequest_of_setUp setUp []).1
      rw [httpcDownload_result, if_pos counted] at result
      have whole (ok : (if sdk.completed ≠ hfSuccess then upgradeFail else upgradeOk) = upgradeOk) :
          CompleteDownload sdk (httpcRequest sdk []).effects := by
        have completed : sdk.completed = hfSuccess := by
          by_contra failed
          rw [if_pos failed] at ok
          exact absurd ok (by decide)
        obtain ⟨read, written⟩ := looked completed
        exact completeDownload_request setUp counted completed read written
      rw [UpgradesWhole, httpcGet_signed found fits]
      refine ⟨_, _, result, Option.some_ne_none _, whole, ?_⟩
      intro env jdArgs pRoot uPdate stale update url result effect member installs
      have ok := upgradeOk_of_installs update url member installs
      rw [result] at ok
      exact ⟨ok, whole ok⟩

/-- A byte, and then a read that fails. -/
def truncatedFirmware : OtaSdk :=
  { emptyFirmware true with
    reads := [⟨1, by decide, .zeros _, 0⟩, ⟨-1, by decide, .zeros _, 0⟩]
    reads_end := ⟨⟨-1, by decide, .zeros _, 0⟩, .tail _ (.head _), by decide⟩ }

/-- A truncated body is taken for the firmware. -/
theorem upgradesWhole_fails : ¬ ∀ (sdk : OtaSdk) (purl : CString) (sslTx : FixedBuffer sizeofSslTx),
    UpgradesWhole sdk purl sslTx := by
  intro all
  obtain ⟨rv, dlStatus, result, _, whole, _⟩ := all truncatedFirmware signedUrl (.zeros _)
  have ok : (httpcGet truncatedFirmware signedUrl (.zeros _)).result =
      some (upgradeOk, some downloadOk) := by decide +kernel
  rw [ok] at result
  cases result
  have complete := whole rfl
  exact absurd (complete.read _ (.tail _ (.head _))) (by decide)

end ShuangFa
