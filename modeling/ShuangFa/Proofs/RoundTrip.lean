import ShuangFa.Proofs.Encryption

/-! # What was encrypted opens

A decryption sees its text through a memory that starts with the ciphertext. CBC gives back the
padded text and reads the length of the padding off its last byte; the RSA loop gives back the
pieces in order.
-/

namespace ShuangFa

open Memory Cipher

section Cbc

variable {encrypt decrypt : AesBlock → AesBlock}

/-- A text opens to itself and its padding, and its own length is reported. -/
theorem aesCbcCoreDecrypt_encrypt (inverse : ∀ block, decrypt (encrypt block) = block)
    (input : View) {length : ℕ} (short : 16 * (length / 16 + 1) < 2 ^ 32) (ivec : AesBlock)
    {memory : View}
    (starts : memory.read 0 (16 * (length / 16 + 1)) = aesCbcCoreEncrypt encrypt input length ivec)
    (before : UInt8) :
    aesCbcCoreDecrypt decrypt memory (16 * (length / 16 + 1)) ivec before =
      (input.read 0 length ++
        List.replicate (16 - length % 16) (UInt8.ofNat (16 - length % 16)), length) := by
  obtain ⟨pad, padding⟩ : ∃ pad, 16 - length % 16 = pad := ⟨_, rfl⟩
  obtain ⟨blocks, count⟩ : ∃ blocks, length / 16 + 1 = blocks := ⟨_, rfl⟩
  obtain ⟨padded, text⟩ : ∃ padded,
      input.read 0 length ++ List.replicate pad (UInt8.ofNat pad) = padded := ⟨_, rfl⟩
  have size : padded.length = 16 * blocks := by
    rw [← text, List.length_append, View.read_length, List.length_replicate]
    omega
  have plain : (viewBlocks (.ofList padded) blocks).flatMap FixedBuffer.bytes = padded := by
    rw [viewBlocks_bytes, View.read_ofList _ (Nat.le_of_eq size.symm), ← size, List.take_length]
  -- the memory shows the chain, and the chain opens to the blocks of the padded text
  have opened : (aesCbcDecryptLoop decrypt blocks memory ivec).1 = padded := by
    have chain := aesCbcEncryptLoop_eq encrypt blocks (.ofList padded) ivec
    simp only [aesCbcCoreEncrypt, padding, count, text, chain] at starts
    have shown := @viewBlocks_of_read memory
      (chainEncrypt AesBlock.xor encrypt ivec (viewBlocks (.ofList padded) blocks))
    rw [chainEncrypt_length, viewBlocks, List.length_map, List.length_range] at shown
    rw [aesCbcDecryptLoop_bytes, shown starts, ← viewBlocks,
      chainDecrypt_chainEncrypt inverse AesBlock.xor_cancel, plain]
  have last : padded.getLastD before = UInt8.ofNat pad := by
    have some' : pad = pad - 1 + 1 := by omega
    rw [← text, List.getLastD_eq_getLast?, List.getLast?_append, some', List.getLast?_replicate]
    rfl
  have full : 16 * blocks / 16 = blocks := by omega
  have rest : 16 * blocks % 16 = 0 := by omega
  have byte : (UInt8.ofNat pad).toNat = pad := by
    rw [UInt8.toNat_ofNat']
    omega
  simp only [aesCbcCoreDecrypt, padding, count, text, full, rest, opened, List.take_zero,
    List.append_nil, last, byte, subU32]
  congr 1
  omega

end Cbc

section Rsa

variable {plain memory : View} {u16Len : ℕ} {decrypt : ℕ → Option (List UInt8)}

/-- The pieces are the text. -/
theorem rsaPiece_flatMap (plain : View) (u16Len : ℕ) :
    (List.range (rsaPieces u16Len)).flatMap (rsaPiece plain u16Len) = plain.read 0 u16Len := by
  have pieces (count : ℕ) (inside : 21 * count ≤ u16Len) :
      (List.range count).flatMap (rsaPiece plain u16Len) = plain.read 0 (21 * count) := by
    induction count with
    | zero => rfl
    | succ count ih =>
      rw [List.range_succ, List.flatMap_append, ih (by omega), List.flatMap_singleton, rsaPiece,
        Nat.min_eq_left (by omega), Nat.mul_succ, View.read_add, Nat.zero_add]
  rcases rsaPieces_cases u16Len with ⟨rfl, one⟩ | ⟨_, count⟩
  · rw [one]
    rfl
  · obtain ⟨last, more⟩ : ∃ last, rsaPieces u16Len = last + 1 := ⟨rsaPieces u16Len - 1, by omega⟩
    have ends : u16Len = 21 * last + (u16Len - 21 * last) := by omega
    rw [more, List.range_succ, List.flatMap_append, pieces last (by omega), List.flatMap_singleton,
      rsaPiece, Nat.min_eq_right (by omega)]
    conv_rhs => rw [ends, View.read_add, Nat.zero_add]

/-- Blocks that all open give their texts in order. -/
theorem rsaTexts_of_opens {piece : ℕ → List UInt8} (blocks place : ℕ)
    (opens : ∀ index < blocks, decrypt (place + 32 * index) = some (piece index)) :
    rsaTexts decrypt blocks place = (List.range blocks).map piece := by
  induction blocks generalizing place piece with
  | zero => rfl
  | succ blocks ih =>
    have rest : rsaTexts decrypt blocks (place + 32) =
        (List.range blocks).map fun index => piece (index + 1) := by
      apply ih
      intro index inside
      have next : place + 32 + 32 * index = place + 32 * (index + 1) := by ring
      rw [next]
      exact opens (index + 1) (Nat.succ_lt_succ inside)
    have first : decrypt place = some (piece 0) := opens 0 (Nat.succ_pos _)
    rw [rsaTexts_opened blocks first, List.range_succ_eq_map, List.map_cons, List.map_map]
    exact congrArg (piece 0 :: ·) rest

variable {rsaPublic rsaPrivate : RsaBlock → Option RsaBlock}

variable (rsaPublic rsaPrivate) in
/-- `rsa_pkcs1_decrypt` opens what `rsa_pkcs1_encrypt` makes of a text. -/
def Pkcs1Inverse : Prop :=
  ∀ (pads : ℕ → {byte : UInt8 // byte ≠ 0}) (text cipher : List UInt8),
    rsaPkcs1Encrypt rsaPublic pads text = (true, cipher) →
    ∀ (outputMaxLen : ℕ) (input : View), input.read 0 zcSecRsaKeyBytes = cipher →
      text.length ≤ outputMaxLen → rsaPkcs1Decrypt rsaPrivate outputMaxLen input = some text

/-- The padding comes off again: none of the pad bytes is the zero that ends them. -/
theorem pkcs1Inverse_of_blocks
    (inverse : ∀ block cipher, rsaPublic block = some cipher → rsaPrivate cipher = some block) :
    Pkcs1Inverse rsaPublic rsaPrivate := by
  intro pads text cipher written outputMaxLen input starts room
  have short := ((rsaPkcs1Encrypt_length written).2 rfl).1
  rw [rsaPkcs1Encrypt_eq pads short] at written
  split at written
  · cases written
  · next sealed encrypted =>
    cases written
    have block : FixedBuffer.ofView input 0 zcSecRsaKeyBytes = sealed := FixedBuffer.ext starts
    have padding : ((rsaPadded pads text short).bytes.drop 2).dropWhile (· ≠ 0) = 0 :: text := by
      have nonzero : ∀ byte ∈ (List.range (zcSecRsaKeyBytes - 3 - text.length)).map
          (fun place => (pads place).val), decide (byte ≠ 0) = true := by
        intro byte member
        obtain ⟨place, _, rfl⟩ := List.mem_map.mp member
        exact decide_eq_true (pads place).property
      simp only [rsaPadded, List.append_assoc, List.cons_append, List.nil_append, List.drop_succ_cons,
        List.drop_zero]
      rw [List.dropWhile_append_of_pos nonzero]
      rfl
    have front : (rsaPadded pads text short).bytes.take 2 = [0, rsaCrypt] := rfl
    simp only [rsaPkcs1Decrypt, block, inverse _ _ encrypted, Option.bind_eq_bind,
      Option.bind_some, front, padding, ne_eq, not_true_eq_false, if_false]
    rw [if_neg (Nat.not_lt.mpr room)]

/-- A text of several blocks opens to itself. -/
theorem secDecryptTextByRsa_opens {calls : ℕ → RsaBlock → Option RsaBlock}
    (inverse : ∀ call, Pkcs1Inverse (calls call) rsaPrivate) (stale : Stale)
    {cipher : List UInt8} (wrote : RsaWrote calls plain u16Len (rsaPieces u16Len) cipher)
    (small : 32 * rsaPieces u16Len < 2 ^ 16)
    (starts : memory.read 0 (32 * rsaPieces u16Len) = cipher) :
    secDecryptTextByRsa rsaPrivate stale memory (32 * rsaPieces u16Len) =
      ⟨.ok, plain.read 0 u16Len, u16Len⟩ := by
  have pieces := rsaPieces_cases u16Len
  have opens : ∀ index < rsaPieces u16Len,
      rsaPkcs1Decrypt rsaPrivate (32 * rsaPieces u16Len) (memory.shift (0 + 32 * index)) =
        some (rsaPiece plain u16Len index) := by
    intro index inside
    obtain ⟨call, pads, written⟩ := wrote.encrypts small index inside
    have short := ((rsaPkcs1Encrypt_length written).2 rfl).1
    apply inverse call pads _ _ written
    · rw [View.read_shift, ← starts, View.read_part _ (by omega), Nat.zero_add, Nat.add_zero]
      rfl
    · omega
  have blocks : rsaBlocks (32 * rsaPieces u16Len) = rsaPieces u16Len := by
    rw [rsaBlocks, zcSecRsaKeyBytes]
    split_ifs <;> omega
  have texts : rsaTexts (fun place =>
      rsaPkcs1Decrypt rsaPrivate (32 * rsaPieces u16Len) (memory.shift place))
      (rsaBlocks (32 * rsaPieces u16Len)) 0 =
        (List.range (rsaPieces u16Len)).map (rsaPiece plain u16Len) := by
    rw [blocks]
    exact rsaTexts_of_opens _ 0 opens
  rw [secDecryptTextByRsa_eq rsaPrivate stale memory _ texts, blocks, List.length_map,
    List.length_range, if_pos rfl, ← List.flatMap_def, rsaPiece_flatMap, View.read_length,
    Nat.mod_eq_of_lt (by omega)]

end Rsa

/-- Two sides with the same switch and session, and with ciphers that open under the receiver's keys
what the sender's keys have closed. -/
structure Linked (crypto : Crypto) (sender peer : SecContext) : Prop where
  switch : peer.u32SecSwitch = sender.u32SecSwitch
  keyed : peer.u8keyRecv = sender.u8keyRecv
  sessionKey : peer.u8SessionKey = sender.u8SessionKey
  iv : peer.ivRecv = sender.ivSend
  aes : ∀ block,
    crypto.aesDecrypt sender.u8SessionKey (crypto.aesEncrypt sender.u8SessionKey block) = block
  rsa : Pkcs1Inverse (crypto.rsaPublic sender.u8CloudKey) (crypto.rsaPrivate peer.u8PrivateKey)

section Engine

variable {crypto : Crypto} {sender peer : SecContext} {pads : ℕ → ℕ → {byte : UInt8 // byte ≠ 0}}
  {head sealedHead : ZcSecHead} {plain memory : View}

/-- What is not encrypted for RSA opens on a side that shares the session. -/
theorem secDecrypt_secEncrypt_shared
    (keyed : sender.u8keyRecv = true → peer.u8keyRecv = true)
    (sessionKey : peer.u8SessionKey = sender.u8SessionKey) (iv : peer.ivRecv = sender.ivSend)
    (aes : ∀ block,
      crypto.aesDecrypt sender.u8SessionKey (crypto.aesEncrypt sender.u8SessionKey block) = block)
    (encrypts : (secEncrypt crypto sender pads head plain).ret = .ok)
    (other : secEncryptType sender.u32SecSwitch head.u8SecType ≠ zcSecAlgRsa)
    (agreed : secFlag peer.u32SecSwitch sealedHead.u8SecType =
      secEncryptType sender.u32SecSwitch head.u8SecType)
    (total : zcHtons sealedHead.u16TotalMsg =
      (secEncrypt crypto sender pads head plain).cipher.length) (stale : Stale)
    (starts : memory.read 0 (secEncrypt crypto sender pads head plain).cipher.length =
      (secEncrypt crypto sender pads head plain).cipher) :
    ∃ rest, secDecrypt crypto peer stale sealedHead memory =
      ⟨.ok, plain.read 0 (zcHtons head.u16TotalMsg) ++ rest, zcHtons head.u16TotalMsg⟩ := by
  have range := zcHtons_lt head.u16TotalMsg
  rcases secEncrypt_cases encrypts with type | ⟨type, key⟩ | type
  · rw [secDecrypt_none (agreed.trans type), total, starts, secEncrypt_none type, View.read_length]
    exact ⟨[], by rw [List.append_nil]⟩
  · rw [secDecrypt_aes (agreed.trans type), total]
    rw [secEncrypt_aes type, secAesEncrypt, if_pos key] at starts ⊢
    simp only [aesCbcCoreEncrypt_length] at starts ⊢
    rw [secAesDecrypt, if_pos (keyed key), sessionKey, iv,
      aesCbcCoreDecrypt_encrypt aes _ (by omega) _ starts]
    exact ⟨_, congrArg (SecResult.mk .ok _) (Nat.mod_eq_of_lt range)⟩
  · exact absurd type other

/-- Where both sides choose the same algorithm, a text opens to itself, whatever lies behind it. -/
theorem secDecrypt_secEncrypt (linked : Linked crypto sender peer)
    (encrypts : (secEncrypt crypto sender pads head plain).ret = .ok)
    (small : (secEncrypt crypto sender pads head plain).cipher.length < 2 ^ 16)
    (agreed : secFlag peer.u32SecSwitch sealedHead.u8SecType =
      secEncryptType sender.u32SecSwitch head.u8SecType)
    (total : zcHtons sealedHead.u16TotalMsg =
      (secEncrypt crypto sender pads head plain).cipher.length) (stale : Stale)
    (starts : memory.read 0 (secEncrypt crypto sender pads head plain).cipher.length =
      (secEncrypt crypto sender pads head plain).cipher) :
    ∃ rest, secDecrypt crypto peer stale sealedHead memory =
      ⟨.ok, plain.read 0 (zcHtons head.u16TotalMsg) ++ rest, zcHtons head.u16TotalMsg⟩ := by
  by_cases type : secEncryptType sender.u32SecSwitch head.u8SecType = zcSecAlgRsa
  · rw [secDecrypt_rsa (agreed.trans type), total]
    rw [secEncrypt_rsa type] at encrypts small starts ⊢
    obtain ⟨⟨wrote, length⟩, _⟩ := secEncryptTextByRsa_wrote encrypts
    have size : (secEncryptTextByRsa (fun _ => crypto.rsaPublic sender.u8CloudKey) pads plain
        (zcHtons head.u16TotalMsg)).cipher.length =
          32 * rsaPieces (zcHtons head.u16TotalMsg) := by omega
    rw [size] at starts ⊢
    rw [secDecryptTextByRsa_opens (fun _ => linked.rsa) stale wrote (by omega) starts]
    exact ⟨[], by rw [List.append_nil]⟩
  · exact secDecrypt_secEncrypt_shared linked.keyed.trans linked.sessionKey linked.iv linked.aes
      encrypts type agreed total stale starts

end Engine

end ShuangFa
