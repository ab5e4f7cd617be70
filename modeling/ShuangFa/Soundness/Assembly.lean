import ShuangFa.Framing.Leftover
import ShuangFa.Framing.LengthPrefix
import ShuangFa.Model.MoudleUart
import ShuangFa.Proofs.MessageQueue

/-! # The packets of the module

`ZC_AssemblePkt` holds a part of the next packet, and its status tells whether the head is there.
So `ZC_Moudlefunc` hands on exactly the packets of the stream, whatever its cuts, as long as no chunk
is so long that the sum of its length and that of the part wraps.
-/

namespace ShuangFa

open Memory Framing Machine

/-- Packets of the stream from the module: the magic, a message head, and as many bytes as it
announces. -/
def moudleFormat : Format where
  headLen := zcMagicLen + sizeofMessageHead
  maxLen := zcMaxUartbufLen
  total bytes := packetLen (View.ofList bytes)
  head_le_total bytes := by
    rw [packetLen, Nat.add_comm zcMagicLen, Nat.add_assoc]
    exact Nat.le_add_left ..
  total_append bytes rest head := by
    have head : 12 ≤ bytes.length := head
    simp only [packetLen, ZcMessageHead.load, loadU16, View.shift, View.ofList, zcMagicLen,
      List.getD_eq_getElem?_getD]
    rw [List.getElem?_append_left (by omega), List.getElem?_append_left (by omega)]

structure IsMoudlePacket (packet : List UInt8) : Prop extends moudleFormat.IsFrame packet where
  magic : packet.take zcMagicLen = u8MagicHead

/-- The call of `ZC_RecvDataFromMoudle` for a packet: the bytes behind the magic, and the length the
head announces. -/
def MoudleCall.ofPacket (packet : List UInt8) : MoudleCall where
  pu8Data := packet.drop zcMagicLen
  u16DataLen := sizeofMessageHead +
    zcHtons (ZcMessageHead.load ((View.ofList packet).shift zcMagicLen)).payloadlen

/-- The status while a part of a packet is there. -/
def statusOf (acc : List UInt8) : BufferStatus :=
  if acc = [] then .idle
  else if acc.length < zcMagicLen + sizeofMessageHead then .segmentNohead else .segmentHead

/-- A part of a packet is in the array. -/
structure ZcUartBuffer.Held (buffer : ZcUartBuffer) (acc : List UInt8) : Prop where
  shows : acc <+: buffer.u8UartBuffer.bytes
  status : buffer.u32Status = statusOf acc
  recvLen : acc ≠ [] → buffer.u32RecvLen = acc.length

section Packets

variable {packet acc chunk first left source : List UInt8} {buffer : ZcUartBuffer} {length : ℕ}

theorem IsMoudlePacket.head_le (valid : IsMoudlePacket packet) : 12 ≤ packet.length :=
  valid.toIsFrame.head_le

theorem IsMoudlePacket.ne_nil (valid : IsMoudlePacket packet) : packet ≠ [] :=
  List.ne_nil_of_length_pos (Nat.lt_of_lt_of_le (by decide) valid.head_le)

/-- The call has the length of what it shows. -/
theorem IsMoudlePacket.dataLen (valid : IsMoudlePacket packet) :
    (MoudleCall.ofPacket packet).u16DataLen + zcMagicLen = packet.length := by
  have announced : packetLen (View.ofList packet) = packet.length := valid.announced
  rw [← announced, packetLen, MoudleCall.ofPacket, Nat.add_comm sizeofMessageHead]

/-- A part of a packet with its head announces the length of the packet. -/
theorem IsMoudlePacket.packetLen_part (valid : IsMoudlePacket packet) {part : List UInt8}
    (within : part <+: packet) (head : 12 ≤ part.length) :
    packetLen (View.ofList part) = packet.length :=
  valid.toIsFrame.total_of_prefix within head

/-- Bytes that begin with such a part announce it too. -/
theorem IsMoudlePacket.packetLen_of_part (valid : IsMoudlePacket packet) {part bytes : List UInt8}
    (within : part <+: packet) (head : 12 ≤ part.length) (shows : part <+: bytes) :
    packetLen (View.ofList bytes) = packet.length := by
  obtain ⟨rest, rfl⟩ := shows
  exact (moudleFormat.total_append part rest head).trans (valid.packetLen_part within head)

/-- They begin with the magic. -/
theorem IsMoudlePacket.magic_of_part (valid : IsMoudlePacket packet) {part bytes : List UInt8}
    (within : part <+: packet) (head : 12 ≤ part.length) (shows : part <+: bytes) :
    bytes.take zcMagicLen = u8MagicHead := by
  have four : zcMagicLen ≤ part.length := Nat.le_trans (by decide) head
  obtain ⟨rest, rfl⟩ := shows
  obtain ⟨missing, rfl⟩ := within
  rw [List.take_append_of_le_length four, ← valid.magic, List.take_append_of_le_length four]

theorem copyIn?_spec (shows : acc <+: buffer.u8UartBuffer.bytes) (inside : length ≤ source.length)
    (fits : acc.length + length ≤ zcMaxUartbufLen) :
    ∃ next, buffer.copyIn? acc.length source length = some next ∧
      acc ++ source.take length <+: next.u8UartBuffer.bytes := by
  refine ⟨_, if_pos ⟨inside, fits⟩, ?_⟩
  have size : (source.take length).length = length := List.length_take_of_le inside
  have stored := buffer.u8UartBuffer.take_overlay acc.length (source.take length) (by omega)
  rw [List.prefix_iff_eq_take.mp shows |>.symm] at stored
  rw [← stored]
  exact List.take_prefix ..

theorem statusOf_short (some : acc ≠ []) (short : acc.length < 12) :
    statusOf acc = .segmentNohead := by
  rw [statusOf, if_neg some]
  exact if_pos short

theorem statusOf_long (long : 12 ≤ acc.length) : statusOf acc = .segmentHead := by
  have some : acc ≠ [] := List.ne_nil_of_length_pos (Nat.lt_of_lt_of_le (by decide) long)
  rw [statusOf, if_neg some]
  exact if_neg (Nat.not_lt.mpr long)

theorem addU32_of_lt {a b : ℕ} (small : a + b < 2 ^ 32) : addU32 a b = a + b := Nat.mod_eq_of_lt small

theorem subU32_of_le {a b : ℕ} (small : a < 2 ^ 32) (le : b ≤ a) : subU32 a b = a - b := by
  rw [subU32]
  omega

/-- What is left of a packet is copied behind the part, if all of it is in the chunk. -/
theorem IsMoudlePacket.copy_last (valid : IsMoudlePacket packet)
    (shows : acc <+: buffer.u8UartBuffer.bytes) (whole : acc ++ first = packet) :
    ∃ next, buffer.copyIn? acc.length (first ++ left) (subU32 packet.length acc.length) = some next ∧
      packet <+: next.u8UartBuffer.bytes := by
  have size : acc.length + first.length = packet.length := by rw [← whole, List.length_append]
  have fits : packet.length ≤ 1000 := valid.fits
  have rest : subU32 packet.length acc.length = first.length := by
    rw [subU32_of_le (by omega) (by omega)]
    omega
  rw [rest]
  have inside : first.length ≤ (first ++ left).length := by
    rw [List.length_append]
    exact Nat.le_add_right ..
  obtain ⟨next, copied, stored⟩ := copyIn?_spec shows inside (size.trans_le fits)
  refine ⟨next, copied, ?_⟩
  rwa [List.take_left, whole] at stored

/-- A chunk that stays short of the end of the packet is copied behind the part. -/
theorem IsMoudlePacket.copy_part (valid : IsMoudlePacket packet)
    (shows : acc <+: buffer.u8UartBuffer.bytes) (within : acc ++ chunk <+: packet) :
    ∃ next, buffer.copyIn? acc.length chunk chunk.length = some next ∧
      acc ++ chunk <+: next.u8UartBuffer.bytes := by
  have size := within.length_le
  rw [List.length_append] at size
  obtain ⟨next, copied, stored⟩ := copyIn?_spec shows (Nat.le_refl chunk.length)
    (size.trans valid.fits)
  rw [List.take_length] at stored
  exact ⟨next, copied, stored⟩

/-- The head of a packet is completed: the array shows it, and the part that was there. -/
theorem IsMoudlePacket.copy_head (valid : IsMoudlePacket packet)
    (shows : acc <+: buffer.u8UartBuffer.bytes) (short : acc.length < 12)
    (reached : 12 ≤ (acc ++ chunk).length) (begins : (acc ++ chunk).take 12 <+: packet) :
    ∃ headed, buffer.copyIn? acc.length chunk (subU32 (zcMagicLen + sizeofMessageHead) acc.length) =
      some headed ∧ acc <+: headed.u8UartBuffer.bytes ∧
        headed.u8UartBuffer.bytes.take zcMagicLen = u8MagicHead ∧
          headed.packetLen = packet.length := by
  rw [List.length_append] at reached
  have rest : subU32 (zcMagicLen + sizeofMessageHead) acc.length = 12 - acc.length :=
    subU32_of_le (by decide) short.le
  have inside : 12 - acc.length ≤ chunk.length := by omega
  have fits : acc.length + (12 - acc.length) ≤ zcMaxUartbufLen := by
    rw [Nat.add_sub_cancel' short.le]
    decide
  obtain ⟨headed, copied, stored⟩ := copyIn?_spec shows inside fits
  have head : acc ++ chunk.take (12 - acc.length) = (acc ++ chunk).take 12 := by
    rw [List.take_append, List.take_of_length_le short.le]
  have twelve : 12 ≤ ((acc ++ chunk).take 12).length := by
    rw [List.length_take, List.length_append]
    omega
  refine ⟨headed, rest ▸ copied, (List.prefix_append ..).trans stored, ?_, ?_⟩
  · exact valid.magic_of_part begins twelve (head ▸ stored)
  · exact valid.packetLen_of_part begins twelve (head ▸ stored)

/-- The first chunk of a packet is held if it is short of the end. -/
theorem IsMoudlePacket.begin_part (valid : IsMoudlePacket packet) (idle : buffer.u32Status = .idle)
    (some : chunk ≠ []) (within : chunk <+: packet) (shorter : chunk.length < packet.length) :
    ∃ next, zcAssemblePkt chunk buffer = Option.some (.ok, 0, next) ∧ next.Held chunk := by
  have shows : [] <+: buffer.u8UartBuffer.bytes := List.nil_prefix
  obtain ⟨next, copied, stored⟩ := valid.copy_part shows ((List.nil_append chunk).symm ▸ within)
  have fits : packet.length ≤ zcMaxUartbufLen := valid.fits
  simp only [zcAssemblePkt, idle]
  by_cases short : chunk.length < 12
  · rw [if_pos (show chunk.length < zcMagicLen + sizeofMessageHead from short)]
    refine ⟨_, congrArg (Option.map _) copied, stored, (statusOf_short some short).symm, fun _ => rfl⟩
  · have head := Nat.not_lt.mp short
    have total := valid.packetLen_part within head
    rw [if_neg (show ¬ chunk.length < zcMagicLen + sizeofMessageHead from short),
      if_neg (not_not.mpr (valid.magic_of_part within head List.prefix_rfl)), total,
      if_neg (Nat.not_lt.mpr fits), if_neg (Nat.not_le.mpr shorter)]
    exact ⟨_, congrArg (Option.map _) copied, stored, (statusOf_long head).symm, fun _ => rfl⟩

/-- A later chunk is held behind the part if it is short of the end. -/
theorem IsMoudlePacket.goOn_part (valid : IsMoudlePacket packet) (held : buffer.Held acc)
    (begun : acc ≠ []) (within : acc ++ chunk <+: packet)
    (shorter : acc.length + chunk.length < packet.length) :
    ∃ next, zcAssemblePkt chunk buffer = Option.some (.ok, 0, next) ∧ next.Held (acc ++ chunk) := by
  have fits : packet.length ≤ zcMaxUartbufLen := valid.fits
  have bound : packet.length ≤ 1000 := fits
  have filled : acc ++ chunk ≠ [] := List.append_ne_nil_of_left_ne_nil begun chunk
  have size : (acc ++ chunk).length = acc.length + chunk.length := List.length_append
  have sum : addU32 acc.length chunk.length = (acc ++ chunk).length := by
    rw [size, addU32_of_lt (by omega)]
  have sum' : addU32 chunk.length acc.length = (acc ++ chunk).length := by
    rw [size, addU32_of_lt (by omega), Nat.add_comm]
  by_cases short : acc.length < 12
  · have status := held.status.trans (statusOf_short begun short)
    simp only [zcAssemblePkt, status, held.recvLen begun, sum, sum']
    by_cases still : (acc ++ chunk).length < 12
    · obtain ⟨next, copied, stored⟩ := valid.copy_part held.shows within
      rw [if_pos (show _ < zcMagicLen + sizeofMessageHead from still)]
      exact ⟨_, congrArg (Option.map _) copied, stored, (statusOf_short filled still).symm,
        fun _ => rfl⟩
    · have reached := Nat.not_lt.mp still
      obtain ⟨headed, first, kept, magic, total⟩ :=
        valid.copy_head held.shows short reached ((List.take_prefix ..).trans within)
      obtain ⟨next, copied, stored⟩ := valid.copy_part kept within
      rw [if_neg (show ¬ _ < zcMagicLen + sizeofMessageHead from still), first, Option.bind_eq_bind,
        Option.bind_some, if_neg (not_not.mpr magic), total, if_neg (Nat.not_lt.mpr fits),
        if_neg (by omega)]
      exact ⟨_, congrArg (Option.map _) copied, stored, (statusOf_long reached).symm, fun _ => rfl⟩
  · have long := Nat.not_lt.mp short
    have status := held.status.trans (statusOf_long long)
    have total : buffer.packetLen = packet.length :=
      valid.packetLen_of_part ((List.prefix_append ..).trans within) long held.shows
    obtain ⟨next, copied, stored⟩ := valid.copy_part held.shows within
    simp only [zcAssemblePkt, status, held.recvLen begun, sum, sum', total]
    rw [if_neg (by omega)]
    exact ⟨_, congrArg (Option.map _) copied, stored, (statusOf_long (by omega)).symm, fun _ => rfl⟩

/-- What a packet leaves of a chunk. -/
structure ZcUartBuffer.Complete (buffer : ZcUartBuffer) (packet : List UInt8) : Prop where
  shows : packet <+: buffer.u8UartBuffer.bytes
  status : buffer.u32Status = .full
  recvLen : buffer.u32RecvLen = packet.length

/-- A chunk that begins with a packet completes it. -/
theorem IsMoudlePacket.begin_last (valid : IsMoudlePacket packet) (idle : buffer.u32Status = .idle)
    (small : (packet ++ left).length < 2 ^ 32) :
    ∃ next, zcAssemblePkt (packet ++ left) buffer = some (.ok, left.length, next) ∧
      next.Complete packet := by
  have shows : [] <+: buffer.u8UartBuffer.bytes := List.nil_prefix
  have fits : packet.length ≤ zcMaxUartbufLen := valid.fits
  have head := valid.head_le
  have size : (packet ++ left).length = packet.length + left.length := List.length_append
  have total := valid.packetLen_of_part List.prefix_rfl head (List.prefix_append packet left)
  have inside : packet.length ≤ (packet ++ left).length := size ▸ Nat.le_add_right ..
  obtain ⟨next, copied, stored⟩ := copyIn?_spec shows inside ((Nat.zero_add _).trans_le fits)
  rw [List.nil_append, List.take_left] at stored
  have excess : subU32 (packet ++ left).length packet.length = left.length := by
    rw [subU32_of_le small inside]
    omega
  have long : ¬ (packet ++ left).length < zcMagicLen + sizeofMessageHead :=
    Nat.not_lt.mpr (head.trans inside)
  simp only [zcAssemblePkt, idle]
  rw [if_neg long,
    if_neg (not_not.mpr (valid.magic_of_part List.prefix_rfl head (List.prefix_append ..))), total,
    if_neg (Nat.not_lt.mpr fits), if_pos inside, excess]
  exact ⟨_, congrArg (Option.map _) copied, stored, rfl, rfl⟩

/-- A chunk that begins with the rest of a packet completes it. -/
theorem IsMoudlePacket.goOn_last (valid : IsMoudlePacket packet) (held : buffer.Held acc)
    (begun : acc ≠ []) (whole : acc ++ first = packet)
    (small : (first ++ left).length + acc.length < 2 ^ 32) :
    ∃ next, zcAssemblePkt (first ++ left) buffer = some (.ok, left.length, next) ∧
      next.Complete packet := by
  have fits : packet.length ≤ zcMaxUartbufLen := valid.fits
  have head := valid.head_le
  have size : acc.length + first.length = packet.length := by rw [← whole, List.length_append]
  have sizes : (first ++ left).length = first.length + left.length := List.length_append
  have sum : addU32 (first ++ left).length acc.length = packet.length + left.length := by
    rw [addU32_of_lt small]
    omega
  have sum' : addU32 acc.length (first ++ left).length = packet.length + left.length := by
    rw [addU32_of_lt (by omega)]
    omega
  have excess : subU32 (packet.length + left.length) packet.length = left.length := by
    rw [subU32_of_le (by omega) (Nat.le_add_right ..), Nat.add_sub_cancel_left]
  have stream : acc ++ (first ++ left) = packet ++ left := by rw [← List.append_assoc, whole]
  by_cases short : acc.length < 12
  · have status := held.status.trans (statusOf_short begun short)
    have begins : (acc ++ (first ++ left)).take 12 <+: packet := by
      rw [stream, List.take_append_of_le_length head]
      exact List.take_prefix ..
    obtain ⟨headed, filled, kept, magic, total⟩ := valid.copy_head held.shows short
      (by rw [stream, List.length_append]; omega) begins
    obtain ⟨next, copied, stored⟩ := valid.copy_last kept whole
    have reached : ¬ packet.length + left.length < zcMagicLen + sizeofMessageHead :=
      Nat.not_lt.mpr (Nat.le_add_right_of_le head)
    simp only [zcAssemblePkt, status, held.recvLen begun, sum, sum']
    rw [if_neg reached, filled, Option.bind_eq_bind, Option.bind_some,
      if_neg (not_not.mpr magic), total, if_neg (Nat.not_lt.mpr fits),
      if_pos (Nat.le_add_right ..), excess]
    exact ⟨_, congrArg (Option.map _) copied, stored, rfl, rfl⟩
  · have long := Nat.not_lt.mp short
    have status := held.status.trans (statusOf_long long)
    have total : buffer.packetLen = packet.length :=
      valid.packetLen_of_part (whole ▸ List.prefix_append ..) long held.shows
    obtain ⟨next, copied, stored⟩ := valid.copy_last held.shows whole
    simp only [zcAssemblePkt, status, held.recvLen begun, sum, total]
    rw [if_pos (Nat.le_add_right ..), excess]
    exact ⟨_, congrArg (Option.map _) copied, stored, rfl, rfl⟩

end Packets

section Recursion

variable {s t : MoudleUart} {next : ZcUartBuffer} {chunk first left packet : List UInt8} {depth : ℕ}

/-- A chunk that does not complete a packet. -/
theorem zcMoudlefunc_part (some : chunk ≠ [])
    (assembled : zcAssemblePkt chunk s.uartBuffer = Option.some (.ok, 0, next))
    (part : next.u32Status ≠ .full) (depth : ℕ) :
    zcMoudlefunc (depth + 1) chunk s = Option.some { s with uartBuffer := next } := by
  rw [zcMoudlefunc]
  simp only [List.length_eq_zero_iff, some, if_false, assembled, Option.bind_eq_bind,
    Option.bind_some, reduceCtorEq, part, Nat.lt_irrefl]

/-- A chunk that completes a packet, and what is left of it. -/
theorem zcMoudlefunc_last (some : first ≠ [])
    (assembled : zcAssemblePkt (first ++ left) s.uartBuffer = Option.some (.ok, left.length, next))
    (full : next.u32Status = .full) (depth : ℕ) :
    zcMoudlefunc (depth + 1) (first ++ left) s =
      if left = [] then Option.some (MoudleUart.recvDataFromMoudle { s with uartBuffer := next })
      else zcMoudlefunc depth left (MoudleUart.recvDataFromMoudle { s with uartBuffer := next }) := by
  have filled : (first ++ left).length ≠ 0 := fun nothing =>
    List.append_ne_nil_of_left_ne_nil some left (List.length_eq_zero_iff.mp nothing)
  have within : left.length ≤ (first ++ left).length := by
    rw [List.length_append]
    exact Nat.le_add_left ..
  have behind : (first ++ left).drop ((first ++ left).length - left.length) = left := by
    rw [List.length_append, Nat.add_sub_cancel, List.drop_left]
  rw [zcMoudlefunc]
  simp only [filled, if_false, assembled, Option.bind_eq_bind, Option.bind_some, reduceCtorEq, full,
    if_true, within, behind, List.length_pos_iff, ne_eq, ite_not]

/-- More calls of itself than needed change nothing. -/
theorem zcMoudlefunc_mono {more : ℕ} (handled : zcMoudlefunc depth chunk s = some t)
    (deeper : depth ≤ more) : zcMoudlefunc more chunk s = some t := by
  induction depth generalizing more chunk s with
  | zero => cases handled
  | succ depth ih =>
    cases more with
    | zero => cases deeper
    | succ more =>
      rw [zcMoudlefunc] at handled ⊢
      dsimp only at handled ⊢
      by_cases nothing : chunk.length = 0
      · rwa [if_pos nothing] at handled ⊢
      · rw [if_neg nothing] at handled ⊢
        obtain ⟨⟨ret, left, next⟩, assembled, later⟩ := Option.bind_eq_some_iff.mp handled
        rw [assembled, Option.bind_eq_bind, Option.bind_some]
        dsimp only at later ⊢
        split_ifs at later ⊢ with refused complete some within
        all_goals first | exact later | exact ih later (Nat.le_of_succ_le_succ deeper)

end Recursion

/-- A part of the next packet is in the array, and the packets in front of it were handed on. -/
structure Handed (start s : MoudleUart) (acc : List UInt8) (out : List (List UInt8)) : Prop where
  held : s.uartBuffer.Held acc
  calls : s.calls = start.calls ++ out.map MoudleCall.ofPacket
  cleared : acc = [] → s.uartBuffer.u32RecvLen =
    if out = [] then start.uartBuffer.u32RecvLen else 0

/-- The packets are handed on, once each and in order, and nothing is left. -/
def HandsOn (start : MoudleUart) (packets chunks : List (List UInt8)) : Prop :=
  ∃ t, moudleChunks.replay? start chunks = some t ∧
    t.calls = start.calls ++ packets.map MoudleCall.ofPacket ∧ t.uartBuffer.u32Status = .idle ∧
      t.uartBuffer.u32RecvLen = if packets = [] then start.uartBuffer.u32RecvLen else 0

section Streams

variable {start : MoudleUart}

/-- The packet in the array is what `ZC_RecvDataFromMoudle` is called with. -/
theorem Handed.handOn {s : MoudleUart} {acc packet : List UInt8} {out : List (List UInt8)}
    {next : ZcUartBuffer} (handed : Handed start s acc out) (valid : IsMoudlePacket packet)
    (complete : next.Complete packet) :
    Handed start (MoudleUart.recvDataFromMoudle { s with uartBuffer := next }) []
      (out ++ [packet]) := by
  have call := valid.dataLen
  have fits : packet.length ≤ 1000 := valid.fits
  have length : subU32 next.u32RecvLen zcMagicLen % 2 ^ 16 =
      (MoudleCall.ofPacket packet).u16DataLen := by
    rw [complete.recvLen, subU32_of_le (by omega) (by omega), Nat.mod_eq_of_lt (by omega)]
    omega
  have shown : (next.u8UartBuffer.bytes.drop zcMagicLen).take
      (MoudleCall.ofPacket packet).u16DataLen = packet.drop zcMagicLen := by
    obtain ⟨rest, same⟩ := complete.shows
    rw [← same, List.drop_append_of_le_length (by omega)]
    refine List.take_left' ?_
    rw [List.length_drop]
    omega
  refine ⟨⟨List.nil_prefix, rfl, nofun⟩, ?_, fun _ => ?_⟩
  · rw [List.map_append, ← List.append_assoc, ← handed.calls]
    simp only [MoudleUart.recvDataFromMoudle, length, shown]
    rfl
  · rw [if_neg (List.concat_ne_nil _ _)]
    rfl

/-- `ZC_Moudlefunc` splits the stream. -/
theorem splits_moudlefunc (start : MoudleUart) :
    Splits IsMoudlePacket (2 ^ 32 - 1000) zcMoudlefunc (Handed start) where
  empty depth s := by
    rw [zcMoudlefunc]
    exact if_pos rfl
  part := by
    intro s acc out chunk packet handed valid some small within proper
    have shorter : acc.length + chunk.length < packet.length := by
      rw [← List.length_append]
      exact Nat.lt_of_le_of_ne within.length_le fun same => proper (within.eq_of_length same)
    have assembled : ∃ next, zcAssemblePkt chunk s.uartBuffer = Option.some (.ok, 0, next) ∧
        next.Held (acc ++ chunk) := by
      by_cases nothing : acc = []
      · subst nothing
        rw [List.length_nil, Nat.zero_add] at shorter
        exact valid.begin_part handed.held.status some within shorter
      · exact valid.goOn_part handed.held nothing within shorter
    obtain ⟨next, assembled, held⟩ := assembled
    have filled : acc ++ chunk ≠ [] := List.append_ne_nil_of_right_ne_nil acc some
    have part : next.u32Status ≠ .full := by
      rw [held.status, statusOf, if_neg filled]
      split <;> decide
    exact ⟨{ s with uartBuffer := next },
      ⟨held, handed.calls, fun nothing => absurd nothing filled⟩,
      zcMoudlefunc_part some assembled part⟩
  last := by
    intro s acc out first left packet handed valid some small whole
    have fits : packet.length ≤ 1000 := valid.fits
    have size : acc.length + first.length = packet.length := by rw [← whole, List.length_append]
    have assembled : ∃ next, zcAssemblePkt (first ++ left) s.uartBuffer =
        Option.some (.ok, left.length, next) ∧ next.Complete packet := by
      by_cases nothing : acc = []
      · subst nothing
        obtain rfl : first = packet := whole
        exact valid.begin_last handed.held.status (by omega)
      · have positive := List.length_pos_of_ne_nil some
        exact valid.goOn_last handed.held nothing whole (by omega)
    obtain ⟨next, assembled, complete⟩ := assembled
    exact ⟨_, handed.handOn valid complete, zcMoudlefunc_last some assembled complete.status⟩

end Streams

/-- However the stream of packets is cut into chunks, every packet is handed on once and in order, no
copy leaves the array, and nothing is left. -/
theorem packets_handedOn {start : MoudleUart} {packets chunks : List (List UInt8)}
    (idle : start.uartBuffer.u32Status = .idle) (valid : ∀ packet ∈ packets, IsMoudlePacket packet)
    (small : ∀ chunk ∈ chunks, chunk.length ≤ 2 ^ 32 - 1000)
    (cut : chunks.flatten = packets.flatten) : HandsOn start packets chunks := by
  have initially : Handed start start [] [] :=
    ⟨⟨List.nil_prefix, idle, nofun⟩, (List.append_nil _).symm, fun _ => rfl⟩
  have owing := Owing.of_flatten (fun packet member => (valid packet member).ne_nil) cut
  obtain ⟨t, replayed, handed⟩ := (splits_moudlefunc start).replay small valid initially owing
  exact ⟨t, replayed, handed.calls, handed.held.status, handed.cleared rfl⟩

/-- A packet without data and one with four bytes. -/
def emptyPacket : List UInt8 := [0x02, 0x03, 0x04, 0x05, 1, 0, 15, 0, 0, 0, 0, 0]
def shortPacket : List UInt8 := [0x02, 0x03, 0x04, 0x05, 1, 0, 15, 0, 0, 4, 0, 0, 7, 7, 7, 7]

theorem emptyPacket_valid : IsMoudlePacket emptyPacket := ⟨⟨by decide, by decide⟩, by decide⟩

theorem shortPacket_valid : IsMoudlePacket shortPacket := ⟨⟨by decide, by decide⟩, by decide⟩

/-- They come cut inside the magic, inside the head of the second one and at an empty chunk. -/
theorem packets_handedOn_chunks : HandsOn ⟨.zero, []⟩ [emptyPacket, shortPacket]
    [[0x02, 0x03], [0x04, 0x05, 1, 0, 15, 0, 0, 0, 0, 0, 0x02, 0x03, 0x04, 0x05, 1, 0], [],
      [15, 0, 0, 4, 0, 0, 7, 7, 7, 7]] :=
  packets_handedOn rfl
    (List.forall_mem_cons.mpr ⟨emptyPacket_valid, List.forall_mem_singleton.mpr shortPacket_valid⟩)
    (by decide) (by decide)

/-- A sum that wraps below the length of a head makes all of a chunk be copied. -/
theorem zcAssemblePkt_overrun {chunk : List UInt8} {buffer : ZcUartBuffer}
    (status : buffer.u32Status = .segmentNohead)
    (wraps : addU32 buffer.u32RecvLen chunk.length < zcMagicLen + sizeofMessageHead)
    (large : zcMaxUartbufLen < buffer.u32RecvLen + chunk.length) :
    zcAssemblePkt chunk buffer = none := by
  have outside : buffer.copyIn? buffer.u32RecvLen chunk chunk.length = none :=
    if_neg fun inside => Nat.not_le.mpr large inside.2
  simp only [zcAssemblePkt, status]
  rw [if_pos wraps, outside]
  rfl

/-- As many packets of sixteen bytes as make `2 ^ 32` bytes, all but the first byte in one chunk. -/
theorem packets_handedOn_fails : ¬ ∀ (start : MoudleUart) (packets chunks : List (List UInt8)),
    start.uartBuffer.u32Status = .idle → (∀ packet ∈ packets, IsMoudlePacket packet) →
      (∀ chunk ∈ chunks, chunk.length < 2 ^ 32) → chunks.flatten = packets.flatten →
        HandsOn start packets chunks := by
  intro all
  have size : (List.replicate (2 ^ 28) shortPacket).flatten.length = 2 ^ 32 := by
    rw [List.length_flatten, List.map_replicate, List.sum_replicate_nat]
    rfl
  obtain ⟨first, rest, split⟩ : ∃ first rest,
      (List.replicate (2 ^ 28) shortPacket).flatten = first :: rest :=
    List.exists_cons_of_length_pos (size ▸ by decide)
  have long : rest.length = 2 ^ 32 - 1 := by
    rw [split, List.length_cons] at size
    omega
  have small : ∀ chunk ∈ [[first], rest], chunk.length < 2 ^ 32 := by
    rw [List.forall_mem_cons, List.forall_mem_singleton, long]
    exact ⟨(show 1 < 2 ^ 32 by decide), by decide⟩
  obtain ⟨t, replayed, _⟩ := all ⟨.zero, []⟩ (List.replicate (2 ^ 28) shortPacket) [[first], rest] rfl
    (fun packet member => List.eq_of_mem_replicate member ▸ shortPacket_valid) small (by
      rw [split, List.flatten_cons, List.flatten_cons, List.flatten_nil, List.append_nil,
        List.singleton_append])
  -- the first byte waits, and one more than the rest has no `u32`
  let held : ZcUartBuffer := ⟨.segmentNohead, 1, (FixedBuffer.zeros _).overlay 0 [first]⟩
  have waits : moudleChunks.step? ⟨.zero, []⟩ [first] = some ⟨held, []⟩ := rfl
  have overrun : zcAssemblePkt rest held = none := by
    refine zcAssemblePkt_overrun rfl ?_ ?_
    · rw [long]
      exact (by decide : addU32 1 (2 ^ 32 - 1) < 12)
    · rw [long]
      exact (by decide : 1000 < 1 + (2 ^ 32 - 1))
  have undefined : moudleChunks.step? ⟨held, []⟩ rest = none := by
    have some : rest.length ≠ 0 := by
      rw [long]
      decide
    change zcMoudlefunc (rest.length + 1) rest ⟨held, []⟩ = none
    rw [zcMoudlefunc]
    simp only [some, if_false, overrun, Option.bind_eq_bind, Option.bind_none]
  rw [PartialMachine.replay?_cons, waits, Option.bind_some, PartialMachine.replay?_cons, undefined]
    at replayed
  cases replayed

end ShuangFa
