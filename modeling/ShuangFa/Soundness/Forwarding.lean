import ShuangFa.Model.Ac
import ShuangFa.Soundness.Packets

/-! # Packets that are handed on to the cloud

`UartRecv` takes packets of up to fifty bytes. `UartProcess` puts a head in front of those that go to
the cloud, in a buffer that has fifty bytes too, so the last eight bytes of the longest packets are
stored behind it.
-/

namespace ShuangFa

open Memory Framing Machine

/-- The message that `UartProcess` makes of a packet lies inside `g_u8DevMsgBuildBuffer`, whatever
the globals it reads are. -/
def ForwardsInside (packet : List UInt8) : Prop :=
  ∀ (subDomainId : ℕ) (uartSendMsgId u8MsgCode u8MsgId : UInt8)
    (pu8Msg : FixedBuffer sizeofDevMsgBuildBuffer),
    uartProcessForwards subDomainId uartSendMsgId packet = some (u8MsgCode, u8MsgId) →
      (acBuildMessage u8MsgCode u8MsgId packet pu8Msg).isSome

/-- `AC_BuildMessage` stays inside the buffer if and only if the message fits it. -/
theorem acBuildMessage_isSome {size : ℕ} (u8MsgCode u8MsgId : UInt8) (pu8Payload : List UInt8)
    (pu8Msg : FixedBuffer size) : (acBuildMessage u8MsgCode u8MsgId pu8Payload pu8Msg).isSome ↔
      sizeofMessageHead + pu8Payload.length ≤ size := by
  by_cases outside : size < sizeofMessageHead + pu8Payload.length
  · have undefined : acBuildMessage u8MsgCode u8MsgId pu8Payload pu8Msg = none := if_pos outside
    rw [undefined]
    exact iff_of_false Bool.false_ne_true (Nat.not_le.mpr outside)
  · obtain ⟨built, defined⟩ : ∃ built, acBuildMessage u8MsgCode u8MsgId pu8Payload pu8Msg =
        some built := ⟨_, if_neg outside⟩
    rw [defined]
    exact iff_of_true rfl (Nat.not_lt.mp outside)

/-- The packets with other codes than those of `UartProcess` are handed on, once the device has a
sub-domain. -/
theorem exists_uartProcessForwards {packet : List UInt8} :
    (∃ subDomainId uartSendMsgId forward,
      uartProcessForwards subDomainId uartSendMsgId packet = some forward) ↔
        packet.getD 1 0 ∉ uartProcessCodes := by
  constructor
  · rintro ⟨subDomainId, uartSendMsgId, forward, forwards⟩ own
    rw [uartProcessForwards, if_pos own] at forwards
    cases forwards
  · intro other
    by_cases reports : packet.getD 1 0 < 16
    · refine ⟨0, 0, (accordRelpyData, 0), ?_⟩
      rw [uartProcessForwards, if_neg other, if_neg (by decide), if_pos reports]
    · refine ⟨0, 0, (respondServerData, 0), ?_⟩
      rw [uartProcessForwards, if_neg other, if_neg (by decide), if_neg reports]

/-- A packet that is handed on has at most forty-two bytes. -/
theorem forwardsInside_iff_length {packet : List UInt8} : ForwardsInside packet ↔
    (packet.getD 1 0 ∉ uartProcessCodes → packet.length ≤ 42) := by
  have room : sizeofMessageHead + packet.length ≤ sizeofDevMsgBuildBuffer ↔ packet.length ≤ 42 := by
    show 8 + packet.length ≤ 50 ↔ _
    omega
  constructor
  · intro inside other
    obtain ⟨subDomainId, uartSendMsgId, forward, forwards⟩ := exists_uartProcessForwards.mpr other
    have defined := inside subDomainId uartSendMsgId _ _ (.zeros _) forwards
    exact room.mp ((acBuildMessage_isSome ..).mp defined)
  · intro short subDomainId uartSendMsgId u8MsgCode u8MsgId buffer forwards
    have other := exists_uartProcessForwards.mp ⟨_, _, _, forwards⟩
    exact (acBuildMessage_isSome ..).mpr (room.mpr (short other))

/-- Every message that is made of a packet lies inside the buffer if and only if the packets that
are handed on have at most forty-two bytes. -/
theorem forwardsInside_iff (stream : List UInt8) :
    uartBytes.Throughout (fun s => ∀ packet ∈ s.calls, ForwardsInside packet) .init stream ↔
      ∀ packet ∈ (mcuScan stream).frames.takeWhile fun packet => decide (packet.length ≤ 50),
        Tailed packet → packet.getD 1 0 ∉ uartProcessCodes → packet.length ≤ 42 := by
  rw [calls_throughout_iff]
  refine forall₂_congr fun packet _ => forall_congr' fun _ => ?_
  exact forwardsInside_iff_length

/-- A report with thirty-seven bytes of data. -/
theorem forwardsInside_fails : ¬ ∀ stream,
    uartBytes.Throughout (fun s => ∀ packet ∈ s.calls, ForwardsInside packet) .init stream := by
  intro all
  let report : List UInt8 := [0xAA, 0x01, 0x25] ++ List.replicate 39 0 ++ [0x55]
  have inside := (calls_throughout_iff ForwardsInside report).mp (all report) report
    (by decide +kernel) (by decide +kernel)
  exact absurd (forwardsInside_iff_length.mp inside (by decide)) (by decide)

end ShuangFa
