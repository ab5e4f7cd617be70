import ShuangFa.Proofs.AesSchedule
import ShuangFa.Proofs.RoundTrip

/-! # The vendored block cipher is Rijndael

The key schedule is the expansion of the user key, the table rounds are the rounds of the cipher on
bytes, and what is encrypted under a user key of any of the three sizes is decrypted under it. With
the block cipher in its place, the messages of a session open without an assumption about it.
-/

namespace ShuangFa

open Memory Cipher Cipher.Rijndael

section Blocks

variable {key : AesKey} {r : ℕ}

/-- The keys of the full rounds, as the loop reads them. -/
theorem fullKeys_eq (words : Words) (r : ℕ) :
    ((List.range (2 * r + 1)).map fun i => 0 + 4 * (i + 1)).map words.keyAt =
      (roundKeys (2 * (r + 1)) words.columns).full := by
  rw [List.map_map]
  apply List.map_congr_left
  intro round _
  rw [Function.comp_apply, Nat.zero_add]
  rfl

/-- `AES_encrypt` under a schedule of any even number of rounds. -/
theorem aesEncrypt_run (count : key.rounds = 2 * (r + 1)) (input : AesBlock) :
    blockState (aesEncrypt input key) =
      (layers sbox).run addKey (roundKeys key.rounds key.rdKey.columns) (blockState input) := by
  have half : key.rounds / 2 = r + 1 := by omega
  have fold := foldl_round_state (encryptWords_round key.rdKey)
    ((List.range (2 * r + 1)).map fun i => 0 + 4 * (i + 1)) (.load input key.rdKey)
  rw [List.foldl_map, fullKeys_eq, load_state] at fold
  rw [aesEncrypt, half, roundLoop_eq, store_state, encryptWords_lastRound, fold, count,
    show 0 + 8 * (r + 1) = 4 * (2 * (r + 1)) by ring]
  rfl

/-- `AES_decrypt`. -/
theorem aesDecrypt_run (count : key.rounds = 2 * (r + 1)) (input : AesBlock) :
    blockState (aesDecrypt input key) =
      (layers sbox).inverse.run addKey (roundKeys key.rounds key.rdKey.columns)
        (blockState input) := by
  have half : key.rounds / 2 = r + 1 := by omega
  have fold := foldl_round_state (decryptWords_round key.rdKey)
    ((List.range (2 * r + 1)).map fun i => 0 + 4 * (i + 1)) (.load input key.rdKey)
  rw [List.foldl_map, fullKeys_eq, load_state] at fold
  rw [aesDecrypt, half, roundLoop_eq, store_state, decryptWords_lastRound, fold, count,
    show 0 + 8 * (r + 1) = 4 * (2 * (r + 1)) by ring]
  rfl

end Blocks

section Schedules

variable {nk : ℕ}

/-- The round keys depend on the words of the rounds only. -/
theorem roundKeys_congr {count : ℕ} {first second : ℕ → Column}
    (same : ∀ index < 4 * (count + 1), first index = second index) :
    roundKeys count first = roundKeys count second := by
  have key {round : ℕ} (inside : round ≤ count) :
      (fun column : Fin 4 => first (4 * round + column)) =
        fun column : Fin 4 => second (4 * round + column) := by
    funext column
    exact same _ (by omega)
  rw [roundKeys, roundKeys, RoundKeys.mk.injEq]
  refine ⟨key (Nat.zero_le _), ?_, key (Nat.le_refl _)⟩
  apply List.map_congr_left
  intro round member
  rw [List.mem_range] at member
  exact key (by omega)

/-- Keys in reverse order, unmixed inside, are the keys of the inverse run. -/
theorem roundKeys_inverse {count : ℕ} {first second : ℕ → Column}
    (ends : ∀ part : Fin 4, second (4 * 0 + part) = first (4 * count + part) ∧
      second (4 * count + part) = first (4 * 0 + part))
    (inner : ∀ (round : ℕ) (part : Fin 4), 0 < round → round < count →
      second (4 * round + part) = mixColumn.symm (first (4 * (count - round) + part))) :
    roundKeys count second = (roundKeys count first).inverse mixColumns.symm := by
  rw [roundKeys, roundKeys, RoundKeys.inverse, RoundKeys.mk.injEq]
  refine ⟨?_, ?_, ?_⟩
  · funext part
    exact (ends part).1
  · apply List.ext_getElem
    · simp only [List.length_map, List.length_reverse]
    · intro index left _
      rw [List.length_map, List.length_range] at left
      simp only [List.getElem_map, List.getElem_reverse, List.length_map, List.length_range,
        List.getElem_range]
      funext part
      rw [inner (index + 1) part (Nat.succ_pos _) (by omega),
        show count - (index + 1) = count - 1 - 1 - index + 1 by omega]
      rfl
  · funext part
    exact (ends part).2

/-- `AES_set_decrypt_key` makes the keys of the inverse run. -/
theorem aesSetDecryptKey_inverse (size : nk = 4 ∨ nk = 6 ∨ nk = 8) (userKey : View) (key : AesKey) :
    ∃ words, aesSetDecryptKey userKey (32 * nk) key = (0, ⟨words, rounds nk⟩) ∧
      roundKeys (rounds nk) words.columns =
        (roundKeys (rounds nk) (userSchedule userKey nk)).inverse mixColumns.symm := by
  obtain ⟨original, made, expanded⟩ := aesSetEncryptKey_expanded size userKey key
  refine ⟨unmixRoundKeys (rounds nk - 1) 0 (swapRoundKeys 0 (4 * rounds nk) original), ?_, ?_⟩
  · rw [aesSetDecryptKey, made]
    rfl
  · have swapped (round : ℕ) (part : Fin 4) (inside : round ≤ rounds nk) :
        columnOf (swapRoundKeys 0 (4 * rounds nk) original (4 * round + part)) =
          userSchedule userKey nk (4 * (rounds nk - round) + part) := by
      have exchanged := swapRoundKeys_eq 0 (rounds nk) original round part.isLt
      rw [Nat.mul_zero, if_pos ⟨Nat.zero_le _, inside⟩, Nat.zero_add] at exchanged
      rw [exchanged]
      exact expanded.known _ (by omega)
    apply roundKeys_inverse
    · intro part
      have first := swapped 0 part (Nat.zero_le _)
      have last := swapped (rounds nk) part (Nat.le_refl _)
      rw [Nat.sub_zero] at first
      rw [Nat.sub_self] at last
      rw [← first, ← last, Words.columns, Words.columns, unmixRoundKeys_eq, unmixRoundKeys_eq,
        if_neg (by omega), if_neg (by rw [rounds]; omega)]
      exact ⟨rfl, rfl⟩
    · intro round part behind inside
      rw [← swapped round part (by omega), ← columnOf_unmixWord, Words.columns, unmixRoundKeys_eq,
        if_pos (by omega)]

end Schedules

/-- `AES_set_encrypt_key` takes the three sizes and nothing else. For a size it takes, it expands the
user key into the words of all rounds, and writes no word behind them. -/
theorem aesSetEncryptKey_expands (userKey : View) (bits : ℤ) (key : AesKey) :
    (∀ nk : ℕ, nk = 4 ∨ nk = 6 ∨ nk = 8 → bits = 32 * nk →
      (aesSetEncryptKey userKey bits key).1 = 0 ∧
        (aesSetEncryptKey userKey bits key).2.rounds = rounds nk ∧
        (∀ index < 4 * (rounds nk + 1), (aesSetEncryptKey userKey bits key).2.rdKey.columns index =
          scheduleWord sbox nk (userColumns userKey) index) ∧
        ∀ index, 4 * (rounds nk + 1) ≤ index →
          (aesSetEncryptKey userKey bits key).2.rdKey index = key.rdKey index) ∧
      ((∀ nk : ℕ, nk = 4 ∨ nk = 6 ∨ nk = 8 → bits ≠ 32 * nk) →
        aesSetEncryptKey userKey bits key = (-2, key)) := by
  refine ⟨?_, ?_⟩
  · rintro nk size rfl
    obtain ⟨words, made, expanded⟩ := aesSetEncryptKey_expanded size userKey key
    rw [made]
    exact ⟨rfl, rfl, expanded.known, expanded.frame⟩
  · intro other
    have first := other 4 (by decide)
    have second := other 6 (by decide)
    have third := other 8 (by decide)
    rw [aesSetEncryptKey, if_pos (by omega)]

/-- Under a user key of any size, `AES_encrypt` is the cipher on bytes, whose substitution is the one
of the standard, whatever the key structure held before. -/
theorem aesEncrypt_rijndael (userKey : View) (stale : AesKey) (input : AesBlock) :
    IsByteSubstitution sbox ∧ ∀ nk : ℕ, nk = 4 ∨ nk = 6 ∨ nk = 8 →
      blockState (aesEncrypt input (aesSetEncryptKey userKey (32 * nk) stale).2) =
        Rijndael.encrypt sbox nk (userColumns userKey) (blockState input) := by
  refine ⟨sbox_isByteSubstitution, ?_⟩
  intro nk size
  obtain ⟨words, made, expanded⟩ := aesSetEncryptKey_expanded size userKey stale
  have even : rounds nk = 2 * (nk / 2 + 2 + 1) := by
    rw [rounds]
    omega
  rw [made, @aesEncrypt_run ⟨words, rounds nk⟩ _ even, roundKeys_congr expanded.known]
  rfl

/-- The runs of both directions under the schedules of a user key. -/
theorem schedules_run (userKey : View) (stale other : AesKey) {nk : ℕ}
    (size : nk = 4 ∨ nk = 6 ∨ nk = 8) : ∃ keys : RoundKeys State,
      (∀ input, blockState (aesEncrypt input (aesSetEncryptKey userKey (32 * nk) stale).2) =
        (layers sbox).run addKey keys (blockState input)) ∧
      ∀ input, blockState (aesDecrypt input (aesSetDecryptKey userKey (32 * nk) other).2) =
        (layers sbox).inverse.run addKey (keys.inverse mixColumns.symm) (blockState input) := by
  obtain ⟨words, made, expanded⟩ := aesSetEncryptKey_expanded size userKey stale
  obtain ⟨inverse, unmade, reversed⟩ := aesSetDecryptKey_inverse size userKey other
  have even : rounds nk = 2 * (nk / 2 + 2 + 1) := by
    rw [rounds]
    omega
  have encrypts := @aesEncrypt_run ⟨words, rounds nk⟩ _ even
  have decrypts := @aesDecrypt_run ⟨inverse, rounds nk⟩ _ even
  simp only [roundKeys_congr expanded.known] at encrypts
  simp only [reversed] at decrypts
  rw [made, unmade]
  exact ⟨_, encrypts, decrypts⟩

/-- Under a user key of any size, `AES_decrypt` and `AES_encrypt` are inverse to each other. -/
theorem aesDecrypt_aesEncrypt (userKey : View) (stale other : AesKey) {nk : ℕ}
    (size : nk = 4 ∨ nk = 6 ∨ nk = 8) :
    let encryptKey := (aesSetEncryptKey userKey (32 * nk) stale).2
    let decryptKey := (aesSetDecryptKey userKey (32 * nk) other).2
    (∀ input, aesDecrypt (aesEncrypt input encryptKey) decryptKey = input) ∧
      ∀ input, aesEncrypt (aesDecrypt input decryptKey) encryptKey = input := by
  obtain ⟨keys, encrypts, decrypts⟩ := schedules_run userKey stale other size
  refine ⟨?_, ?_⟩
  · intro input
    apply blockState_injective
    rw [decrypts, encrypts, Rijndael.inverse_run]
  · intro input
    apply blockState_injective
    rw [encrypts, decrypts, Rijndael.run_inverse]

/-- A key of four words, and one of eight. -/
theorem aesDecrypt_aesEncrypt_zeros :
    (∀ input : AesBlock,
        aesDecrypt (aesEncrypt input (aesSetEncryptKey (.ofList []) 128 ⟨⟨fun _ => 1⟩, 0⟩).2)
          (aesSetDecryptKey (.ofList []) 128 ⟨⟨fun _ => 2⟩, 0⟩).2 = input) ∧
      ∀ input : AesBlock,
        aesDecrypt (aesEncrypt input (aesSetEncryptKey (.ofList []) 256 ⟨⟨fun _ => 1⟩, 0⟩).2)
          (aesSetDecryptKey (.ofList []) 256 ⟨⟨fun _ => 2⟩, 0⟩).2 = input :=
  ⟨(@aesDecrypt_aesEncrypt (.ofList []) ⟨⟨fun _ => 1⟩, 0⟩ ⟨⟨fun _ => 2⟩, 0⟩ 4 (by decide)).1,
    (@aesDecrypt_aesEncrypt (.ofList []) ⟨⟨fun _ => 1⟩, 0⟩ ⟨⟨fun _ => 2⟩, 0⟩ 8 (by decide)).1⟩

section Sessions

/-- The engine with the vendored block cipher: each call makes a key structure on the stack. -/
def vendoredAes (crypto : Crypto) (struKey : AesKey) : Crypto where
  aesEncrypt key block := aesEncrypt block
    (aesSetEncryptKey (.ofList key.bytes) (zcHsSessionKeyLen * 8 : ℕ) struKey).2
  aesDecrypt key block := aesDecrypt block
    (aesSetDecryptKey (.ofList key.bytes) (zcHsSessionKeyLen * 8 : ℕ) struKey).2
  rsaPublic := crypto.rsaPublic
  rsaPrivate := crypto.rsaPrivate

/-- What it encrypts it decrypts. -/
theorem vendoredAes_inverse (crypto : Crypto) (struKey : AesKey)
    (key : FixedBuffer zcHsSessionKeyLen) (block : AesBlock) :
    (vendoredAes crypto struKey).aesDecrypt key ((vendoredAes crypto struKey).aesEncrypt key block) =
      block := by
  obtain ⟨keys, encrypts, decrypts⟩ := @schedules_run (.ofList key.bytes) struKey struKey 4 (.inl rfl)
  apply blockState_injective
  exact (decrypts _).trans ((congrArg _ (encrypts block)).trans (Rijndael.inverse_run _ keys _))

/-- Two ends of a session: what one sends with is what the other receives with. -/
structure SharesSession (sender peer : SecContext) : Prop where
  switch : peer.u32SecSwitch = sender.u32SecSwitch
  keyed : sender.u8keyRecv = true ∧ peer.u8keyRecv = true
  sessionKey : peer.u8SessionKey = sender.u8SessionKey
  iv : peer.ivRecv = sender.ivSend

variable {sender peer : SecContext} {head : ZcSecHead}

/-- A text of the session is sealed without fail, and the head that tells the sealed size opens it to
itself and its length, whatever lies behind it in the buffer of the receiver. -/
theorem session_opens (crypto : Crypto) (struKey : AesKey)
    (pads : ℕ → ℕ → {byte : UInt8 // byte ≠ 0}) (shared : SharesSession sender peer)
    (aes : head.u8SecType = zcSecAlgAes) (plain : View)
    (short : zcHtons head.u16TotalMsg + 16 < 2 ^ 16) :
    let sealed := secEncrypt (vendoredAes crypto struKey) sender pads head plain
    sealed.ret = .ok ∧ ∀ (stale : Stale) (memory : View),
      memory.read 0 sealed.cipher.length = sealed.cipher →
      ∃ rest, secDecrypt (vendoredAes crypto struKey) peer stale
        ⟨zcHtons sealed.cipher.length, head.u8SecType, head.u8Resver⟩ memory =
          ⟨.ok, plain.read 0 (zcHtons head.u16TotalMsg) ++ rest, zcHtons head.u16TotalMsg⟩ := by
  obtain ⟨sealed, encrypted⟩ : ∃ sealed,
    secEncrypt (vendoredAes crypto struKey) sender pads head plain = sealed := ⟨_, rfl⟩
  have type : secEncryptType sender.u32SecSwitch head.u8SecType = zcSecAlgNone ∨
      secEncryptType sender.u32SecSwitch head.u8SecType = zcSecAlgAes := by
    rw [secEncryptType, aes]
    split_ifs
    · exact .inl rfl
    · exact .inr rfl
  have succeeds : sealed.ret = .ok ∧ sealed.cipher.length < 2 ^ 16 := by
    rw [← encrypted]
    rcases type with off | on
    · rw [secEncrypt_none off, View.read_length]
      exact ⟨rfl, by omega⟩
    · rw [secEncrypt_aes on, secAesEncrypt, if_pos shared.keyed.1, aesCbcCoreEncrypt_length]
      exact ⟨rfl, by omega⟩
  have other : secEncryptType sender.u32SecSwitch head.u8SecType ≠ zcSecAlgRsa := by
    rcases type with type | type <;> rw [type] <;> decide
  have agreed : secFlag peer.u32SecSwitch head.u8SecType =
      secEncryptType sender.u32SecSwitch head.u8SecType := by
    rw [shared.switch, secFlag_eq, if_neg (fun clash => other clash.2)]
  rw [← encrypted] at succeeds
  refine ⟨succeeds.1, ?_⟩
  intro stale memory starts
  exact @secDecrypt_secEncrypt_shared _ _ _ _ _ ⟨zcHtons _, head.u8SecType, head.u8Resver⟩ _ _
    (fun _ => shared.keyed.2) shared.sessionKey shared.iv
    (vendoredAes_inverse crypto struKey sender.u8SessionKey) succeeds.1 other agreed
    (zcHtons_zcHtons _ succeeds.2) stale starts

/-- Two blocks and a rest under a key and a start block that are not zero, padded with ones. -/
theorem session_opens_rest :
    let session : SecContext :=
      ⟨1, true, ⟨List.replicate 16 7, rfl⟩, ⟨List.replicate 16 3, rfl⟩, ⟨List.replicate 16 3, rfl⟩,
        .zeros _, .zeros _⟩
    let aes := vendoredAes ⟨fun _ => id, fun _ => id, fun _ => some, fun _ => some⟩ ⟨⟨fun _ => 0⟩, 0⟩
    let plain : View := .ofList (List.replicate 37 5)
    let sealed := secEncrypt aes session (fun _ _ => ⟨1, by decide⟩) ⟨zcHtons 37, zcSecAlgAes, 0⟩ plain
    sealed.ret = .ok ∧ ∀ (stale : Stale) (memory : View),
      memory.read 0 sealed.cipher.length = sealed.cipher →
      ∃ rest, secDecrypt aes session stale ⟨zcHtons sealed.cipher.length, zcSecAlgAes, 0⟩ memory =
        ⟨.ok, plain.read 0 (zcHtons (zcHtons 37)) ++ rest, zcHtons (zcHtons 37)⟩ :=
  session_opens _ _ _ ⟨rfl, ⟨rfl, rfl⟩, rfl, rfl⟩ rfl (.ofList (List.replicate 37 5)) (by decide)

end Sessions

end ShuangFa
