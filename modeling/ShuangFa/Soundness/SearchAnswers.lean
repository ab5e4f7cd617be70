import ShuangFa.Soundness.JdPackets

/-! # Answers to a search are read back

What `app_search_device` sends is a packet that `PacketAnalyse` takes for the document of the answer,
with the parser and the printer of the library.
-/

namespace ShuangFa

open Memory Coding Coding.Reading

section Packets

variable {n : CJsonNumbers} {root : CJson}

/-- A packet is analysed as what it was built from. -/
theorem packetAnalyse_cJsonLibrary (memory : View) {type : ℕ} (small : type < 2 ^ 32)
    (size : (packetBuild (cJsonLibrary n) type root).length < 2 ^ 31) (sendable : Sendable n root) :
    packetAnalyse (cJsonLibrary n).parse
      (memory.store 0 (packetBuild (cJsonLibrary n) type root))
      (packetBuild (cJsonLibrary n) type root).length = some (type, root) := by
  have binary := store_framed_binaryForm memory (byteSum (packetBody (cJsonLibrary n) type root))
    (packetBody (cJsonLibrary n) type root) size
  have sum := (store_framed_sumMatches memory (byteSum (packetBody (cJsonLibrary n) type root))
    (packetBody (cJsonLibrary n) type root) size).mpr rfl
  have short : ((cJsonLibrary n).print root).bytes.length ≤ 2 ^ 32 := by
    rw [packetBuild_eq, framed_length, packetBody, List.length_append] at size
    omega
  rw [← packetBuild_eq] at binary sum
  rw [packetAnalyse_binaryForm _ binary.1 sum, shift_packetBuild,
    cJsonLibrary_parse sendable short, Option.map_some, loadU32_packetBuild _ _ _ _ small]

end Packets

section Answers

variable {n : CJsonNumbers} {env : JdUdpEnvironment}

theorem identity_sendable {jdArgs : JdNVargs} {root : CJson} (made : identity env jdArgs = some root) :
    Sendable n root := by
  obtain ⟨feedid, _, rfl⟩ := Option.map_eq_some_iff.mp made
  refine ⟨?_, fun rest => trivial⟩
  intro number member
  simp [CJson.numbers, CJson.numbersMembers] at member

theorem confirmation_sendable (n : CJsonNumbers) : Sendable n confirmation := by
  refine ⟨CJson.Whole.readable ?_ n, fun rest => trivial⟩
  intro number member
  obtain rfl : number = (0, 0) := by
    simpa [confirmation, CJson.numbers, CJson.numbersMembers] using member
  decide +kernel

/-- What is sent is a packet that fits into the receive buffer. -/
theorem jdAnswer_sent {type : ℕ} {root : CJson} {packet : List UInt8}
    (sent : jdAnswer env type root = .sent packet) :
    packet = packetBuild env.cJson type root ∧
      (packetBuild env.cJson type root).length ≤ sizeofJdRcvBuffer := by
  rw [jdAnswer] at sent
  split at sent
  · rename_i fits
    exact ⟨(JdAnswer.sent.inj sent).symm, fits⟩
  · cases sent

theorem searchAnswer_sent {jdArgs : JdNVargs} {jDevice : CJson} {packet : List UInt8}
    (sent : searchAnswer env jdArgs jDevice = .sent packet) :
    ∃ document, identity env jdArgs = some document ∧ jdAnswer env 2 document = .sent packet := by
  rw [searchAnswer] at sent
  split at sent
  · cases sent
  · split at sent
    · cases made : identity env jdArgs with
      | none =>
        rw [made] at sent
        cases sent
      | some document =>
        rw [made] at sent
        exact ⟨document, rfl, sent⟩
    · cases sent

/-- A datagram is answered with the identity or with the confirmation. -/
theorem appSearchDevice_sent {clock : ℕ} {rxMessage : View} {rLength : ℕ} {s : JdDevice}
    {packet : List UInt8}
    (sent : (appSearchDevice env clock rxMessage rLength s).answer = .sent packet) :
    (∃ document, identity env s.jdArgs = some document ∧ jdAnswer env 2 document = .sent packet) ∨
      jdAnswer env 4 confirmation = .sent packet := by
  rw [appSearchDevice] at sent
  split at sent
  · cases sent
  · split_ifs at sent
    · exact .inl (searchAnswer_sent sent)
    · cases sent
    · rw [JdDevice.provision] at sent
      split at sent
      · cases sent
      · exact .inr sent
    · cases sent
    · cases sent

end Answers

/-- Whatever datagram the device answers, `PacketAnalyse` takes the answer for the identity of the
device or for the confirmation, with its type, wherever the answer is stored. -/
theorem appSearchDevice_answer_read (n : CJsonNumbers) (env : JdUdpEnvironment)
    (library : env.cJson = cJsonLibrary n) (clock : ℕ) (rxMessage : View) (rLength : ℕ)
    (s : JdDevice) (packet : List UInt8)
    (sent : (appSearchDevice env clock rxMessage rLength s).answer = .sent packet) (memory : View) :
    ∃ answer, packetAnalyse env.cJson.parse (memory.store 0 packet) packet.length = some answer ∧
      ((∃ document, identity env s.jdArgs = some document ∧ answer = (2, document)) ∨
        answer = (4, confirmation)) := by
  have analysed {type : ℕ} {root : CJson} (small : type < 2 ^ 32) (sendable : Sendable n root)
      (sent : jdAnswer env type root = .sent packet) :
      packetAnalyse env.cJson.parse (memory.store 0 packet) packet.length = some (type, root) := by
    obtain ⟨rfl, fits⟩ := jdAnswer_sent sent
    rw [library] at fits ⊢
    exact packetAnalyse_cJsonLibrary memory small (fits.trans_lt (by decide)) sendable
  rcases appSearchDevice_sent sent with ⟨document, made, sent⟩ | sent
  · exact ⟨_, analysed (by decide) (identity_sendable made) sent, .inl ⟨document, made, rfl⟩⟩
  · exact ⟨_, analysed (by decide) (confirmation_sendable n) sent, .inr rfl⟩

section Examples

/-- A device that knows its product and its address. -/
def knownDevice : JdUdpEnvironment := ⟨cJsonLibrary wholePowers, literal "ABC", literal "00:11"⟩

/-- A search for that product. -/
def knownSearch : CJson := .object [(literal "productuuid", .string (literal "ABC"))]

/-- The identity of a device without a feed id. -/
def knownIdentity : CJson := .object [(literal "feedid", .string (literal "0")),
  (literal "mac", .string (literal "00:11")), (literal "productuuid", .string (literal "ABC"))]

/-- A fresh device answers a search of the first two minutes. -/
theorem appSearchDevice_answer_read_known :
    let search := packetBuild (cJsonLibrary wholePowers) 1 knownSearch
    let packet := packetBuild (cJsonLibrary wholePowers) 2 knownIdentity
    (appSearchDevice knownDevice 0 (View.store (fun _ => 0) 0 search) search.length .fresh).answer =
        .sent packet ∧
      ∃ answer, packetAnalyse knownDevice.cJson.parse (View.store (fun _ => 0) 0 packet)
          packet.length = some answer ∧
        ((∃ document, identity knownDevice JdDevice.fresh.jdArgs = some document ∧
          answer = (2, document)) ∨ answer = (4, confirmation)) := by
  intro search packet
  have sendable : Sendable wholePowers knownSearch := by
    refine ⟨fun number member => ?_, fun rest => trivial⟩
    simp [knownSearch, CJson.numbers, CJson.numbersMembers] at member
  have short : search.length < 2 ^ 31 ∧ packet.length ≤ sizeofJdRcvBuffer := by decide +kernel
  have found := packetAnalyse_cJsonLibrary (fun _ => 0) (by decide) short.1 sendable
  have answers : searchAnswer knownDevice JdDevice.fresh.jdArgs knownSearch =
      jdAnswer knownDevice 2 knownIdentity := by decide +kernel
  have fits : jdAnswer knownDevice 2 knownIdentity = .sent packet := if_pos short.2
  have sent : (appSearchDevice knownDevice 0 (View.store (fun _ => 0) 0 search) search.length
      .fresh).answer = .sent packet := by
    rw [appSearchDevice, show knownDevice.cJson = cJsonLibrary wholePowers from rfl, found]
    dsimp only
    rw [if_pos rfl, if_pos (by decide), JdDevice.search, answers, fits]
  exact ⟨sent, appSearchDevice_answer_read wholePowers knownDevice rfl 0 _ _ _ _ sent _⟩

end Examples

end ShuangFa
