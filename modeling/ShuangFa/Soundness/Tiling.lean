import ShuangFa.Lasting.Effect
import ShuangFa.Memory.Tiling

/-! # The chunks of an update

Since the last begin of a file, what was written to flash tiles the image up to the offset that the
next chunk must have. The cloud and the module send the same messages, and a chunk that is refused
or not written leaves the state of the update alone. The end of a chunk is a sum of 32 bits, so an
image that ends within a chunk of 2^32 is where the offset can start again from zero.
-/

namespace ShuangFa

open Memory Machine

/-- A message that begins or goes on with a file, as the handler of its sender gets it. -/
inductive OtaMsg where
  | fileBegin (env : Env) (msgId : UInt8) (pstruOta : View)
  | fileChunk (env : Env) (pstruMsg : ZcMessageHead) (pstruOta : View)
  | moudleFileBegin (pu8Msg : View)
  | moudleFileChunk (env : Env) (pstruMsg : ZcMessageHead) (pu8Msg : View)

namespace OtaMsg

def handle (fw : Firmware) : OtaMsg → Sys → Sys
  | fileBegin env msgId pstruOta => pctHandleOtaFileBeginMsg fw env msgId pstruOta
  | fileChunk env pstruMsg pstruOta => pctHandleOtaFileChunkMsg fw env pstruMsg pstruOta
  | moudleFileBegin pu8Msg => pctModuleOtaFileBeginMsg pu8Msg
  | moudleFileChunk env pstruMsg pu8Msg => pctModuleOtaFileChunkMsg env pstruMsg pu8Msg

/-- What `pfunUpdate` returns while the message is handled. -/
def update : OtaMsg → Ret
  | fileBegin env _ _ | fileChunk env _ _ | moudleFileChunk env _ _ => env.update
  | moudleFileBegin _ => .ok

/-- The number of bytes behind the head of a chunk. -/
def u32FileLen : OtaMsg → ℕ
  | fileChunk _ pstruMsg _ | moudleFileChunk _ pstruMsg _ =>
    subU32 (zcHtons pstruMsg.payloadlen) 4
  | fileBegin _ _ _ | moudleFileBegin _ => 0

def IsBegin : OtaMsg → Prop
  | fileBegin _ _ _ | moudleFileBegin _ => True
  | fileChunk _ _ _ | moudleFileChunk _ _ _ => False

instance : DecidablePred IsBegin
  | fileBegin _ _ _ | moudleFileBegin _ => isTrue trivial
  | fileChunk _ _ _ | moudleFileChunk _ _ _ => isFalse id

/-- A chunk that passes the checks of its handler. -/
def Accepted (s : Sys) : OtaMsg → Prop
  | fileChunk _ pstruMsg pstruOta => ¬ otaChunkRefused (zcHtonl (loadU32 pstruOta 0))
      (subU32 (zcHtons pstruMsg.payloadlen) 4) s
  | moudleFileChunk _ pstruMsg pu8Msg => ¬ moudleChunkRefused s pstruMsg pu8Msg
  | fileBegin _ _ _ | moudleFileBegin _ => False

theorem IsBegin.not_accepted {s : Sys} {msg : OtaMsg} (begins : msg.IsBegin) :
    ¬ msg.Accepted s := by
  cases msg with
  | fileBegin | moudleFileBegin => exact id
  | fileChunk | moudleFileChunk => exact begins.elim

/-- A chunk that passes the checks and is written. -/
def Taken (s : Sys) (msg : OtaMsg) : Prop := msg.Accepted s ∧ msg.update = .ok

/-- A message sets up a file, is refused, or is a chunk for `pfunUpdate`. -/
theorem store_handle (fw : Firmware) (s : Sys) (msg : OtaMsg) :
    (msg.IsBegin ∧ ∃ info, (msg.handle fw s).store = s.store.after (.otaFileBegin info) ∧
        info.u32RecvOffset = 0) ∨
      (¬ msg.IsBegin ∧ ¬ msg.Accepted s ∧ (msg.handle fw s).store = s.store) ∨
      ¬ msg.IsBegin ∧ msg.Accepted s ∧
        addU32 s.con.struOtaInfo.u32RecvOffset msg.u32FileLen ≤ s.con.struOtaInfo.u32TotalLen ∧
          ∃ pu8FileData, pu8FileData.length = msg.u32FileLen ∧
            (msg.handle fw s).store =
              s.store.after (.otaChunk pu8FileData (msg.update = .ok)) := by
  have fits {u32RecvOffset u32FileLen : ℕ}
      (accepted : ¬ otaChunkRefused u32RecvOffset u32FileLen s) :
      addU32 s.con.struOtaInfo.u32RecvOffset u32FileLen ≤ s.con.struOtaInfo.u32TotalLen := by
    simp only [otaChunkRefused, not_or, not_not, not_lt] at accepted
    obtain ⟨rfl, fits, _⟩ := accepted
    exact fits
  cases msg with
  | fileBegin env msgId pstruOta =>
    refine .inl ⟨trivial, fileBeginInfo pstruOta, ?_, rfl⟩
    exact (store_pctSendAckToCloud ..).trans (store_otaFileBegin s pstruOta)
  | moudleFileBegin pu8Msg =>
    refine .inl ⟨trivial, fileBeginInfo pu8Msg, ?_, rfl⟩
    exact (store_pctSendNotifyMsg ..).trans (store_otaFileBegin s pu8Msg)
  | fileChunk env pstruMsg pstruOta =>
    have store := store_pctHandleOtaFileChunkMsg fw env s pstruMsg pstruOta
    by_cases refused : otaChunkRefused (zcHtonl (loadU32 pstruOta 0))
      (subU32 (zcHtons pstruMsg.payloadlen) 4) s
    · rw [Effect.ofChunk_refused env refused] at store
      exact .inr (.inl ⟨id, not_not_intro refused, store⟩)
    · rw [Effect.ofChunk_accepted env refused] at store
      exact .inr (.inr ⟨id, refused, fits refused, _, View.read_length .., store⟩)
  | moudleFileChunk env pstruMsg pu8Msg =>
    have store := store_pctModuleOtaFileChunkMsg env s pstruMsg pu8Msg
    by_cases refused : moudleChunkRefused s pstruMsg pu8Msg
    · rw [Effect.ofChunk_refused env refused] at store
      exact .inr (.inl ⟨id, not_not_intro refused, store⟩)
    · rw [Effect.ofChunk_accepted env refused] at store
      exact .inr (.inr ⟨id, refused, fits fun checks => refused (.inl checks), _,
        View.read_length .., store⟩)

end OtaMsg

/-- The span of the image that a call of `pfunUpdate` covers. -/
def AdapterCall.span : AdapterCall → Option Span
  | .update pu8FileData u32Offset => some ⟨u32Offset, pu8FileData.length⟩
  | _ => none

/-- The firmware, and what was written since the last begin of a file, if there was one. -/
structure Upload where
  sys : Sys
  written : Option (List Span)

namespace Upload

/-- What the calls of `pfunUpdate` have written when they return this. -/
def successes (ret : Ret) (calls : List AdapterCall) : List Span :=
  if ret = .ok then calls.filterMap AdapterCall.span else []

def handle (fw : Firmware) (u : Upload) (msg : OtaMsg) : Upload :=
  let sys := msg.handle fw u.sys
  let calls := sys.store.calls.drop u.sys.store.calls.length
  ⟨sys, if msg.IsBegin then some []
    else u.written.map fun spans => spans ++ successes msg.update calls⟩

/-- What was written covers the image once, in order, up to the offset of the next chunk. -/
structure TilesImage (info : PtcOtaInfo) (written : List Span) : Prop where
  cover : ∀ address, Span.cover written address = if address < info.u32RecvOffset then 1 else 0
  increasing : written.Pairwise fun earlier later => earlier.stop ≤ later.start
  size : Span.size written = info.u32RecvOffset
  within : info.u32RecvOffset ≤ info.u32TotalLen

/-- Since the last begin of a file the writes tile the image. -/
def Tiled (u : Upload) : Prop := ∀ written ∈ u.written, TilesImage u.sys.con.struOtaInfo written

/-- A chunk that is refused or not written leaves the state of the update alone. -/
def KeepsRefused (fw : Firmware) (u : Upload) (msg : OtaMsg) : Prop :=
  ¬ msg.IsBegin → ¬ msg.Taken u.sys →
    (u.handle fw msg).sys.con.struOtaInfo = u.sys.con.struOtaInfo

/-- A chunk of the file that is taken ends below 2^32. -/
def EndsInRange (u : Upload) (msg : OtaMsg) : Prop :=
  u.written ≠ none → msg.Taken u.sys →
    u.sys.con.struOtaInfo.u32RecvOffset + msg.u32FileLen < 2 ^ 32

/-- The writes follow one another from the start of the image to the offset. -/
def Consecutive (u : Upload) : Prop := ∀ written ∈ u.written,
  Tiles 0 written u.sys.con.struOtaInfo.u32RecvOffset ∧
    u.sys.con.struOtaInfo.u32RecvOffset ≤ u.sys.con.struOtaInfo.u32TotalLen

end Upload

/-- The handlers of the begin and the chunks of a file. -/
def upload (fw : Firmware) : PartialMachine Upload OtaMsg :=
  ⟨fun u msg => some (u.handle fw msg)⟩

namespace Upload

variable {fw : Firmware} {u : Upload} {msg : OtaMsg}

theorem Consecutive.tiled (consecutive : u.Consecutive) : u.Tiled := by
  intro written since
  obtain ⟨tiles, within⟩ := consecutive written since
  refine ⟨fun address => ?_, tiles.pairwise, ?_, within⟩
  · rw [tiles.cover address]
    simp only [Nat.zero_le, true_and]
  · rw [← tiles.size, Nat.zero_add]

/-- The state of the update and what was written after a message. -/
theorem handle_cases (fw : Firmware) (u : Upload) (msg : OtaMsg) :
    (msg.IsBegin ∧ (u.handle fw msg).written = some [] ∧
        (u.handle fw msg).sys.con.struOtaInfo.u32RecvOffset = 0) ∨
      (¬ msg.IsBegin ∧ ¬ msg.Taken u.sys ∧ (u.handle fw msg).written = u.written ∧
        (u.handle fw msg).sys.con.struOtaInfo = u.sys.con.struOtaInfo) ∨
      ¬ msg.IsBegin ∧ msg.Taken u.sys ∧
        addU32 u.sys.con.struOtaInfo.u32RecvOffset msg.u32FileLen ≤
          u.sys.con.struOtaInfo.u32TotalLen ∧
        (u.handle fw msg).written = u.written.map (fun spans =>
          spans ++ [⟨u.sys.con.struOtaInfo.u32RecvOffset, msg.u32FileLen⟩]) ∧
        (u.handle fw msg).sys.con.struOtaInfo =
          u.sys.con.struOtaInfo.advance msg.u32FileLen := by
  have ota {e : Effect} (store : (msg.handle fw u.sys).store = u.sys.store.after e) :
      (u.handle fw msg).sys.con.struOtaInfo = (u.sys.store.after e).ota := congrArg Store.ota store
  have calls {e : Effect} (store : (msg.handle fw u.sys).store = u.sys.store.after e) :
      (msg.handle fw u.sys).store.calls.drop u.sys.store.calls.length = e.calls u.sys.store := by
    rw [store, Effect.after_calls, List.drop_left]
  rcases msg.store_handle fw u.sys with ⟨begins, info, store, zero⟩ | ⟨chunk, refused, store⟩ |
    ⟨chunk, accepted, fits, pu8FileData, length, store⟩
  · refine .inl ⟨begins, ?_, ?_⟩
    · rw [handle, if_pos begins]
    · rw [ota store]
      exact zero
  · have same : (msg.handle fw u.sys).store = u.sys.store.after .stay := store
    refine .inr (.inl ⟨chunk, fun taken => refused taken.1, ?_, ota same⟩)
    rw [handle, calls same, if_neg chunk, Effect.calls]
    simp only [successes, List.filterMap_nil, ite_self, List.append_nil, Option.map_id']
  · by_cases written : msg.update = .ok
    · refine .inr (.inr ⟨chunk, ⟨accepted, written⟩, fits, ?_, ?_⟩)
      · rw [handle, calls store, if_neg chunk, Effect.calls]
        simp only [successes, written, ↓reduceIte, List.filterMap_cons, AdapterCall.span,
          List.filterMap_nil, length]
        rfl
      · rw [ota store]
        simp only [written, decide_true, Store.after, ↓reduceIte, length]
        rfl
    · refine .inr (.inl ⟨chunk, fun taken => written taken.2, ?_, ?_⟩)
      · rw [handle, calls store, if_neg chunk]
        simp only [successes, written, ↓reduceIte, List.append_nil, Option.map_id']
      · rw [ota store]
        simp only [written, decide_false, Store.after, Bool.false_eq_true, ↓reduceIte]
        rfl

theorem keepsRefused (fw : Firmware) (u : Upload) (msg : OtaMsg) : u.KeepsRefused fw msg := by
  intro chunk lost
  rcases handle_cases fw u msg with ⟨begins, _⟩ | ⟨_, _, _, same⟩ | ⟨_, taken, _⟩
  · exact absurd begins chunk
  · exact same
  · exact absurd taken lost

/-- A message keeps the writes consecutive unless the end of its chunk wraps. -/
theorem Consecutive.handle (consecutive : u.Consecutive) (ends : u.EndsInRange msg) :
    (u.handle fw msg).Consecutive := by
  intro written since
  rcases handle_cases fw u msg with ⟨_, fresh, zero⟩ | ⟨_, _, kept, same⟩ |
    ⟨_, taken, fits, longer, advanced⟩
  · obtain rfl := Option.some.inj (fresh.symm.trans since)
    rw [zero]
    exact ⟨.nil 0, Nat.zero_le _⟩
  · rw [same]
    exact consecutive written (kept.symm.trans since)
  · obtain ⟨spans, before, rfl⟩ := Option.map_eq_some_iff.mp (longer.symm.trans since)
    obtain ⟨tiles, _⟩ := consecutive spans before
    have inRange := ends (by rw [before]; nofun) taken
    have sum : addU32 u.sys.con.struOtaInfo.u32RecvOffset msg.u32FileLen =
        u.sys.con.struOtaInfo.u32RecvOffset + msg.u32FileLen := Nat.mod_eq_of_lt inRange
    rw [advanced, PtcOtaInfo.advance, sum]
    rw [sum] at fits
    exact ⟨tiles.concat, fits⟩

/-- A chunk whose end wraps leaves an offset that is not the sum of what was written. -/
theorem Consecutive.not_tiled (consecutive : u.Consecutive) (wraps : ¬ u.EndsInRange msg) :
    ¬ (u.handle fw msg).Tiled := by
  simp only [EndsInRange, not_forall, not_lt] at wraps
  obtain ⟨since, taken, beyond⟩ := wraps
  obtain ⟨spans, before⟩ := Option.ne_none_iff_exists'.mp since
  obtain ⟨tiles, _⟩ := consecutive spans before
  intro tiled
  rcases handle_cases fw u msg with ⟨begins, _⟩ | ⟨_, lost, _⟩ | ⟨_, _, _, longer, advanced⟩
  · exact begins.not_accepted taken.1
  · exact lost taken
  · have image := (tiled _ (longer.trans (congrArg _ before))).size
    rw [advanced] at image
    have whole : Tiles 0 (spans ++ [⟨_, msg.u32FileLen⟩]) _ := tiles.concat
    have wrapped : addU32 u.sys.con.struOtaInfo.u32RecvOffset msg.u32FileLen =
        u.sys.con.struOtaInfo.u32RecvOffset + msg.u32FileLen :=
      image.symm.trans ((Nat.zero_add _).symm.trans whole.size)
    have small : addU32 u.sys.con.struOtaInfo.u32RecvOffset msg.u32FileLen < 2 ^ 32 :=
      Nat.mod_lt _ (by decide)
    omega

theorem consecutive_none (s : Sys) : (Upload.mk s none).Consecutive := nofun

theorem exists_replay? (fw : Firmware) (source : Upload) (tape : List OtaMsg) :
    ∃ target, (upload fw).replay? source tape = some target := by
  induction tape generalizing source with
  | nil => exact ⟨source, rfl⟩
  | cons msg rest ih => exact ih (source.handle fw msg)

/-- Along a run the writes tile the image exactly when no chunk that is taken wraps. -/
theorem throughout_tiled_iff {source : Upload} (start : source.Consecutive)
    (tape : List OtaMsg) :
    (upload fw).Throughout Tiled source tape ↔ (upload fw).EachStep EndsInRange source tape := by
  obtain ⟨target, replayed⟩ := exists_replay? fw source tape
  refine PartialMachine.throughout_iff_eachStep (I := Consecutive) (A := fun _ => True)
    (fun _ => Consecutive.tiled) ?_ ?_ start (fun _ _ => trivial) replayed
  · rintro u msg next consecutive _ ends step
    cases step
    exact consecutive.handle ends
  · rintro u msg next consecutive _ wraps step
    cases step
    exact consecutive.not_tiled wraps

end Upload

/-- From any state on, what is written since the last begin of a file tiles the image, and a chunk
that is refused or not written changes nothing, exactly when no chunk that is taken ends at 2^32 or
behind it. -/
theorem written_tile_image (fw : Firmware) (s : Sys) (tape : List OtaMsg) :
    (upload fw).Throughout Upload.Tiled ⟨s, none⟩ tape ∧
        (upload fw).EachStep (Upload.KeepsRefused fw) ⟨s, none⟩ tape ↔
      (upload fw).EachStep Upload.EndsInRange ⟨s, none⟩ tape := by
  rw [← Upload.throughout_tiled_iff (Upload.consecutive_none s)]
  apply and_iff_left
  exact PartialMachine.EachStep.of_forall fun u msg _ => Upload.keepsRefused fw u msg

/-! ## An image of almost 2^32 bytes -/

/-- The begin of a file of 2^32 - 1 bytes. -/
def largestFile : OtaMsg := .fileBegin .calm 0 fun _ => 0xFF

/-- The bytes of a `u32` in network order. -/
def networkU32 (n : ℕ) : List UInt8 :=
  [UInt8.ofNat (n / 2 ^ 24), UInt8.ofNat (n / 2 ^ 16), UInt8.ofNat (n / 2 ^ 8), UInt8.ofNat n]

/-- The chunk of the longest length at a multiple of that length. -/
def longChunk (index : ℕ) : OtaMsg :=
  let payload := networkU32 (index * zcOtaMaxChunkLen) ++ List.replicate zcOtaMaxChunkLen 0
  let crc := crc16Ccitt payload
  .fileChunk .calm ⟨zcVersion, 1, Code.zotaFileChunk, 0, zcHtons (zcOtaMaxChunkLen + 4),
    (UInt8.ofNat (crc / 2 ^ 8), UInt8.ofNat crc)⟩ (.ofList payload)

/-- The chunks that fill the image as far as they fit, and one more. -/
def wrappingUpload : List OtaMsg :=
  largestFile :: (List.range 11184810).map longChunk ++ [longChunk 11184810]

theorem zcHtonl_networkU32 {n : ℕ} (small : n < 2 ^ 32) (rest : List UInt8) :
    zcHtonl (loadU32 (.ofList (networkU32 n ++ rest)) 0) = n := by
  rw [zcHtonl_loadU32]
  simp only [View.ofList, networkU32, List.cons_append, List.getD_cons_zero, List.getD_cons_succ,
    UInt8.toNat_ofNat']
  omega

/-- The next long chunk is taken as long as its offset is a `u32`. -/
theorem longChunk_taken {s : Sys} {index : ℕ} (small : index * zcOtaMaxChunkLen < 2 ^ 32)
    (total : s.con.struOtaInfo.u32TotalLen = 2 ^ 32 - 1)
    (offset : s.con.struOtaInfo.u32RecvOffset = index * zcOtaMaxChunkLen) :
    (longChunk index).Taken s := by
  have length : subU32 (zcHtons (zcHtons (zcOtaMaxChunkLen + 4))) 4 = zcOtaMaxChunkLen := by decide
  refine ⟨?_, rfl⟩
  simp only [longChunk, OtaMsg.Accepted, otaChunkRefused, zcHtonl_networkU32 small, length, total,
    offset, not_or, not_not, not_lt]
  have wrapped : addU32 (index * zcOtaMaxChunkLen) zcOtaMaxChunkLen < 2 ^ 32 :=
    Nat.mod_lt _ (by decide)
  exact ⟨trivial, Nat.le_sub_one_of_lt wrapped, Nat.le_refl _⟩

theorem longChunk_not_isBegin (index : ℕ) : ¬ (longChunk index).IsBegin := by
  simp only [longChunk, OtaMsg.IsBegin, not_false_eq_true]

theorem longChunk_u32FileLen (index : ℕ) : (longChunk index).u32FileLen = zcOtaMaxChunkLen := by
  simp only [longChunk, OtaMsg.u32FileLen]
  decide

theorem largestFile_struOtaInfo (fw : Firmware) (s : Sys) :
    (largestFile.handle fw s).con.struOtaInfo = fileBeginInfo fun _ => 0xFF :=
  congrArg Store.ota ((store_pctSendAckToCloud ..).trans (store_otaFileBegin s _))

/-- The long chunks move the offset on, one after the other. -/
theorem replay?_longChunks (fw : Firmware) (s : Sys) (count : ℕ)
    (small : count * zcOtaMaxChunkLen < 2 ^ 32) :
    ∃ u, (upload fw).replay? ⟨s, none⟩ (largestFile :: (List.range count).map longChunk) = some u ∧
      u.written ≠ none ∧ u.sys.con.struOtaInfo.u32TotalLen = 2 ^ 32 - 1 ∧
        u.sys.con.struOtaInfo.u32RecvOffset = count * zcOtaMaxChunkLen := by
  induction count with
  | zero =>
    refine ⟨Upload.handle fw ⟨s, none⟩ largestFile, rfl, nofun, ?_⟩
    have begun := largestFile_struOtaInfo fw s
    rw [Upload.handle, begun]
    exact ⟨by decide, (Nat.zero_mul _).symm⟩
  | succ count ih =>
    rw [Nat.succ_mul] at small ⊢
    have before : count * zcOtaMaxChunkLen < 2 ^ 32 := Nat.lt_of_le_of_lt (Nat.le_add_right ..) small
    obtain ⟨u, replayed, since, total, offset⟩ := ih before
    have taken := longChunk_taken before total offset
    refine ⟨u.handle fw (longChunk count), ?_, ?_⟩
    · rw [List.range_succ, List.map_append, ← List.cons_append, List.map_singleton,
        PartialMachine.replay?_concat, replayed]
      rfl
    rcases Upload.handle_cases fw u (longChunk count) with ⟨begins, _⟩ | ⟨_, lost, _⟩ |
      ⟨_, _, _, longer, advanced⟩
    · exact absurd begins (longChunk_not_isBegin count)
    · exact absurd taken lost
    · rw [advanced, longer, longChunk_u32FileLen]
      refine ⟨fun none => since (Option.map_eq_none_iff.mp none), total, ?_⟩
      rw [PtcOtaInfo.advance, offset]
      exact Nat.mod_eq_of_lt small

/-- The last chunk is taken at an offset where its end wraps. -/
theorem tiled_fails : ¬ (upload .plain).Throughout Upload.Tiled ⟨hfInit none .zero, none⟩
    wrappingUpload := by
  rw [Upload.throughout_tiled_iff (Upload.consecutive_none _), wrappingUpload,
    PartialMachine.eachStep_append]
  rintro ⟨_, last⟩
  obtain ⟨u, replayed, since, total, offset⟩ :=
    replay?_longChunks .plain (hfInit none .zero) 11184810 (by decide)
  have inRange := (last u replayed).1 since (longChunk_taken (by decide) total offset)
  rw [offset, longChunk_u32FileLen] at inRange
  exact absurd inRange (by decide)

end ShuangFa
