import ShuangFa.Proofs.JdUdp

/-! # Provisioning over the network

A request of type 3 gives the device its feed id, its key and its servers. Nothing of it is checked,
so the new record is whole only if the request has the strings, each with its zero fits its array,
there are at most two servers, and they come in an array. A request that is not such one and changes
nothing has to repeat what is stored.
-/

namespace ShuangFa

open Memory Coding

/-- Every server has an entry that begins with its string. -/
def HoldsServers (iplist : FixedBuffer sizeofIplistEntry × FixedBuffer sizeofIplistEntry)
    (servers : List CJson) : Prop :=
  ∀ (i : ℕ) (server : CJson), servers[i]? = some server →
    ∃ (valuestring : CString) (entry : FixedBuffer sizeofIplistEntry), server = .string valuestring ∧
      [iplist.1, iplist.2][i]? = some entry ∧ terminated valuestring.bytes <+: entry.bytes

/-- The arrays of a record begin with the strings of a request. -/
structure HoldsRequest (jdArgs : JdNVargs) (feedid accesskey : CString) (servers : List CJson) :
    Prop where
  feedid : terminated feedid.bytes <+: jdArgs.feedid.bytes
  accesskey : terminated accesskey.bytes <+: jdArgs.accesskey.bytes
  iplist : HoldsServers jdArgs.iplist servers

/-- The string members of a request and a list of servers lie in the arrays of the new record, and
the record is written to flash. -/
def ProvisionedWhole (env : JdUdpEnvironment) (rxMessage : View) (rLength : ℕ) (s : JdDevice)
    (left : Searched) : Prop :=
  ∃ jDevice feedid accesskey servers jdArgs,
    packetAnalyse env.cJson.parse rxMessage rLength = some (3, jDevice) ∧
    jDevice.valuestringAt "feedid" = some feedid ∧
    jDevice.valuestringAt "accesskey" = some accesskey ∧
    jDevice.getObjectItem "server" = some (.array servers) ∧
    left.jdArgs = some jdArgs ∧ HoldsRequest jdArgs feedid accesskey servers ∧
    left.userbin = some (hffileUserbinWrite jdConfigOffset jdArgs.image s.userbin)

/-- A datagram leaves `jdArgs` as they are, or provisions the device as a whole. -/
def ProvisionsWhole (env : JdUdpEnvironment) (clock : ℕ) (rxMessage : View) (rLength : ℕ)
    (s : JdDevice) : Prop :=
  (appSearchDevice env clock rxMessage rLength s).jdArgs = some s.jdArgs ∨
    ProvisionedWhole env rxMessage rLength s (appSearchDevice env clock rxMessage rLength s)

/-- A string has room for itself and its zero. -/
def ServersFit (servers : List CJson) : Prop :=
  servers.length ≤ 2 ∧ ∀ server ∈ servers, ∃ valuestring, server = .string valuestring ∧
    valuestring.bytes.length < sizeofIplistEntry

/-- A request whose strings fit, with an array of servers, or with what the record already holds. -/
def RequestFits (jdArgs : JdNVargs) (jDevice : CJson) : Prop :=
  ∃ feedid accesskey server, jDevice.valuestringAt "feedid" = some feedid ∧
    jDevice.valuestringAt "accesskey" = some accesskey ∧
    jDevice.getObjectItem "server" = some server ∧ feedid.bytes.length < sizeofFeedid ∧
    accesskey.bytes.length < sizeofAccesskey ∧ ServersFit server.child ∧
    ((∃ servers, server = .array servers) ∨ (ascii "HF_JD".toList <+: jdArgs.magic.bytes ∧
      HoldsRequest jdArgs feedid accesskey server.child))

section Copies

variable {n : ℕ} {destination stored : FixedBuffer n} {source : CString}

theorem strcpy?_eq_some_iff : strcpy? destination source = some stored ↔
    source.bytes.length < n ∧ stored = destination.overlay 0 (terminated source.bytes) := by
  have length : (terminated source.bytes).length = source.bytes.length + 1 := List.length_append
  rw [strcpy?, FixedBuffer.store?, Nat.zero_add, length]
  constructor
  · intro copied
    split_ifs at copied with fits
    exact ⟨fits, (Option.some.inj copied).symm⟩
  · rintro ⟨fits, rfl⟩
    exact if_pos fits

/-- A store to the start of an array changes nothing if it is what the array begins with. -/
theorem overlay_eq_self_iff {bytes : List UInt8} (fits : bytes.length ≤ n) :
    destination.overlay 0 bytes = destination ↔ bytes <+: destination.bytes := by
  constructor
  · intro same
    have shown := destination.take_overlay_zero bytes fits
    rw [same] at shown
    rw [← shown]
    exact List.take_prefix _ _
  · intro begins
    rw [List.prefix_iff_eq_take.mp begins]
    exact destination.overlay_zero_take _

/-- An array begins with what has been copied to it. -/
theorem prefix_overlay (fits : source.bytes.length < n) :
    terminated source.bytes <+: (destination.overlay 0 (terminated source.bytes)).bytes := by
  have length : (terminated source.bytes).length = source.bytes.length + 1 := List.length_append
  rw [List.prefix_iff_eq_take, destination.take_overlay_zero _ (by omega)]

theorem overlay_string_eq_self_iff (fits : source.bytes.length < n) :
    destination.overlay 0 (terminated source.bytes) = destination ↔
      terminated source.bytes <+: destination.bytes := by
  have length : (terminated source.bytes).length = source.bytes.length + 1 := List.length_append
  exact overlay_eq_self_iff (by omega)

end Copies

section Servers

variable {iplist stored : FixedBuffer sizeofIplistEntry × FixedBuffer sizeofIplistEntry}
  {servers : List CJson}

/-- What the loop over the servers does where it is defined. -/
inductive StoresServers (iplist : FixedBuffer sizeofIplistEntry × FixedBuffer sizeofIplistEntry) :
    List CJson → FixedBuffer sizeofIplistEntry × FixedBuffer sizeofIplistEntry → Prop where
  | zero : StoresServers iplist [] iplist
  | one {first : CString} (first_fits : first.bytes.length < sizeofIplistEntry) :
    StoresServers iplist [.string first] (iplist.1.overlay 0 (terminated first.bytes), iplist.2)
  | two {first second : CString} (first_fits : first.bytes.length < sizeofIplistEntry)
    (second_fits : second.bytes.length < sizeofIplistEntry) :
    StoresServers iplist [.string first, .string second]
      (iplist.1.overlay 0 (terminated first.bytes), iplist.2.overlay 0 (terminated second.bytes))

theorem storeServers_cons {i : ℕ} {server : CJson} {rest : List CJson} :
    storeServers i iplist (server :: rest) = some stored ↔ ∃ valuestring middle,
      server = .string valuestring ∧ strcpyIplist? i valuestring iplist = some middle ∧
        storeServers (i + 1) middle rest = some stored := by
  simp only [storeServers, bind, Option.bind_eq_some_iff, CJson.valuestring?_eq_some_iff,
    exists_and_left]

theorem strcpyIplist?_first {source : CString} : strcpyIplist? 0 source iplist = some stored ↔
    source.bytes.length < sizeofIplistEntry ∧
      stored = (iplist.1.overlay 0 (terminated source.bytes), iplist.2) := by
  rw [strcpyIplist?, if_pos rfl, Option.map_eq_some_iff]
  constructor
  · rintro ⟨entry, copied, rfl⟩
    obtain ⟨fits, rfl⟩ := strcpy?_eq_some_iff.mp copied
    exact ⟨fits, rfl⟩
  · rintro ⟨fits, rfl⟩
    exact ⟨_, strcpy?_eq_some_iff.mpr ⟨fits, rfl⟩, rfl⟩

theorem strcpyIplist?_second {source : CString} : strcpyIplist? 1 source iplist = some stored ↔
    source.bytes.length < sizeofIplistEntry ∧
      stored = (iplist.1, iplist.2.overlay 0 (terminated source.bytes)) := by
  rw [strcpyIplist?, if_neg (by decide), if_pos rfl, Option.map_eq_some_iff]
  constructor
  · rintro ⟨entry, copied, rfl⟩
    obtain ⟨fits, rfl⟩ := strcpy?_eq_some_iff.mp copied
    exact ⟨fits, rfl⟩
  · rintro ⟨fits, rfl⟩
    exact ⟨_, strcpy?_eq_some_iff.mpr ⟨fits, rfl⟩, rfl⟩

theorem storeServers_eq_some_iff :
    storeServers 0 iplist servers = some stored ↔ StoresServers iplist servers stored := by
  constructor
  · intro done
    cases servers with
    | nil =>
      cases done
      exact .zero
    | cons server rest =>
      obtain ⟨first, middle, rfl, copied, done⟩ := storeServers_cons.mp done
      obtain ⟨first_fits, rfl⟩ := strcpyIplist?_first.mp copied
      cases rest with
      | nil =>
        cases done
        exact .one first_fits
      | cons server rest =>
        obtain ⟨second, middle, rfl, copied, done⟩ := storeServers_cons.mp done
        obtain ⟨second_fits, rfl⟩ := strcpyIplist?_second.mp copied
        cases rest with
        | nil =>
          cases done
          exact .two first_fits second_fits
        | cons server rest =>
          obtain ⟨third, middle, _, copied, _⟩ := storeServers_cons.mp done
          cases copied
  · intro served
    cases served with
    | zero => rfl
    | one first_fits =>
      exact storeServers_cons.mpr ⟨_, _, rfl, strcpyIplist?_first.mpr ⟨first_fits, rfl⟩, rfl⟩
    | two first_fits second_fits =>
      exact storeServers_cons.mpr ⟨_, _, rfl, strcpyIplist?_first.mpr ⟨first_fits, rfl⟩,
        storeServers_cons.mpr ⟨_, _, rfl, strcpyIplist?_second.mpr ⟨second_fits, rfl⟩, rfl⟩⟩

/-- The loop is defined if there are at most two servers and they fit. -/
theorem serversFit_iff : ServersFit servers ↔ ∃ stored, StoresServers iplist servers stored := by
  constructor
  · rintro ⟨few, fit⟩
    cases servers with
    | nil => exact ⟨_, .zero⟩
    | cons server rest =>
      obtain ⟨first, rfl, first_fits⟩ := fit server (List.mem_cons_self ..)
      cases rest with
      | nil => exact ⟨_, .one first_fits⟩
      | cons server rest =>
        obtain ⟨second, rfl, second_fits⟩ :=
          fit server (List.mem_cons_of_mem _ (List.mem_cons_self ..))
        cases rest with
        | nil => exact ⟨_, .two first_fits second_fits⟩
        | cons server rest =>
          simp only [List.length_cons] at few
          omega
  · rintro ⟨stored, served⟩
    cases served with
    | zero => exact ⟨by decide, fun _ absent => absurd absent List.not_mem_nil⟩
    | one first_fits =>
      refine ⟨by simp only [List.length_cons, List.length_nil]; omega, fun server member => ?_⟩
      obtain rfl := List.mem_singleton.mp member
      exact ⟨_, rfl, first_fits⟩
    | two first_fits second_fits =>
      refine ⟨by simp only [List.length_cons, List.length_nil]; omega, fun server member => ?_⟩
      rcases List.mem_pair.mp member with rfl | rfl
      · exact ⟨_, rfl, first_fits⟩
      · exact ⟨_, rfl, second_fits⟩

theorem holdsServers_nil : HoldsServers iplist [] := fun _ _ absent => by cases absent

theorem holdsServers_one_iff {first : CString} :
    HoldsServers iplist [.string first] ↔ terminated first.bytes <+: iplist.1.bytes := by
  constructor
  · intro holds
    obtain ⟨valuestring, entry, same, place, begins⟩ := holds 0 _ rfl
    cases same
    cases place
    exact begins
  · intro begins i server found
    cases i with
    | zero =>
      cases found
      exact ⟨first, iplist.1, rfl, rfl, begins⟩
    | succ i => cases found

theorem holdsServers_two_iff {first second : CString} :
    HoldsServers iplist [.string first, .string second] ↔
      terminated first.bytes <+: iplist.1.bytes ∧ terminated second.bytes <+: iplist.2.bytes := by
  constructor
  · intro holds
    obtain ⟨valuestring, entry, same, place, begins⟩ := holds 0 _ rfl
    obtain ⟨other, last, same_other, place_last, begins_last⟩ := holds 1 _ rfl
    cases same
    cases place
    cases same_other
    cases place_last
    exact ⟨begins, begins_last⟩
  · rintro ⟨begins, begins_last⟩ i server found
    obtain rfl | rfl | ⟨i, rfl⟩ : i = 0 ∨ i = 1 ∨ ∃ later, i = later + 2 := by
      rcases i with _ | _ | i
      · exact .inl rfl
      · exact .inr (.inl rfl)
      · exact .inr (.inr ⟨i, rfl⟩)
    · cases found
      exact ⟨first, iplist.1, rfl, rfl, begins⟩
    · cases found
      exact ⟨second, iplist.2, rfl, rfl, begins_last⟩
    · cases found

/-- The entries hold the servers that have been copied to them. -/
theorem StoresServers.holds (served : StoresServers iplist servers stored) :
    HoldsServers stored servers := by
  cases served with
  | zero => exact holdsServers_nil
  | one first_fits => exact holdsServers_one_iff.mpr (prefix_overlay first_fits)
  | two first_fits second_fits =>
    exact holdsServers_two_iff.mpr ⟨prefix_overlay first_fits, prefix_overlay second_fits⟩

/-- Nothing has changed if the entries held the servers before. -/
theorem StoresServers.unchanged_iff (served : StoresServers iplist servers stored) :
    stored = iplist ↔ HoldsServers iplist servers := by
  cases served with
  | zero => exact ⟨fun _ => holdsServers_nil, fun _ => rfl⟩
  | one first_fits =>
    rw [holdsServers_one_iff, ← overlay_string_eq_self_iff first_fits]
    constructor
    · exact fun same => congrArg Prod.fst same
    · exact fun same => Prod.ext same rfl
  | two first_fits second_fits =>
    rw [holdsServers_two_iff, ← overlay_string_eq_self_iff first_fits,
      ← overlay_string_eq_self_iff second_fits]
    constructor
    · exact fun same => ⟨congrArg Prod.fst same, congrArg Prod.snd same⟩
    · exact fun same => Prod.ext same.1 same.2

end Servers

section Requests

variable {env : JdUdpEnvironment} {clock : ℕ} {rxMessage : View} {rLength : ℕ} {s : JdDevice}
  {jDevice : CJson} {jdArgs stored : JdNVargs}

/-- What a request does where it is defined. -/
structure Provisioned (jDevice : CJson) (jdArgs stored : JdNVargs) (feedid accesskey : CString)
    (server : CJson) : Prop where
  feedid_member : jDevice.valuestringAt "feedid" = some feedid
  accesskey_member : jDevice.valuestringAt "accesskey" = some accesskey
  server_member : jDevice.getObjectItem "server" = some server
  feedid_fits : feedid.bytes.length < sizeofFeedid
  accesskey_fits : accesskey.bytes.length < sizeofAccesskey
  served : StoresServers jdArgs.iplist server.child stored.iplist
  magic : stored.magic = jdArgs.magic.overlay 0 (ascii "HF_JD".toList)
  feedid_stored : stored.feedid = jdArgs.feedid.overlay 0 (terminated feedid.bytes)
  accesskey_stored : stored.accesskey = jdArgs.accesskey.overlay 0 (terminated accesskey.bytes)
  fwVersion : stored.fwVersion = jdArgs.fwVersion

theorem provision_eq_some_iff : provision jDevice jdArgs = some stored ↔
    ∃ feedid accesskey server, Provisioned jDevice jdArgs stored feedid accesskey server := by
  simp only [provision, bind, Option.bind_eq_some_iff, strcpy?_eq_some_iff,
    storeServers_eq_some_iff, Option.some.injEq]
  constructor
  · rintro ⟨feedid, feedid_member, _, ⟨feedid_fits, rfl⟩, accesskey, accesskey_member, _,
      ⟨accesskey_fits, rfl⟩, server, server_member, iplist, served, rfl⟩
    exact ⟨feedid, accesskey, server, feedid_member, accesskey_member, server_member, feedid_fits,
      accesskey_fits, served, rfl, rfl, rfl, rfl⟩
  · rintro ⟨feedid, accesskey, server, done⟩
    refine ⟨feedid, done.feedid_member, _, ⟨done.feedid_fits, rfl⟩, accesskey, done.accesskey_member, _,
      ⟨done.accesskey_fits, rfl⟩, server, done.server_member, _, done.served, ?_⟩
    rw [← done.magic, ← done.feedid_stored, ← done.accesskey_stored, ← done.fwVersion]

/-- A record after a request holds what the request had. -/
theorem Provisioned.holds {feedid accesskey : CString} {server : CJson}
    (done : Provisioned jDevice jdArgs stored feedid accesskey server) :
    HoldsRequest stored feedid accesskey server.child where
  feedid := by
    rw [done.feedid_stored]
    exact prefix_overlay done.feedid_fits
  accesskey := by
    rw [done.accesskey_stored]
    exact prefix_overlay done.accesskey_fits
  iplist := done.served.holds

/-- A request that repeats what is stored changes nothing. -/
theorem Provisioned.unchanged_iff {feedid accesskey : CString} {server : CJson}
    (done : Provisioned jDevice jdArgs stored feedid accesskey server) :
    stored = jdArgs ↔ ascii "HF_JD".toList <+: jdArgs.magic.bytes ∧
      HoldsRequest jdArgs feedid accesskey server.child := by
  have magic : jdArgs.magic.overlay 0 (ascii "HF_JD".toList) = jdArgs.magic ↔
      ascii "HF_JD".toList <+: jdArgs.magic.bytes := overlay_eq_self_iff (by decide)
  rw [← magic, ← done.magic]
  constructor
  · rintro rfl
    exact ⟨rfl, done.holds⟩
  · rintro ⟨same_magic, holds⟩
    have same_feedid : stored.feedid = jdArgs.feedid := by
      rw [done.feedid_stored]
      exact (overlay_string_eq_self_iff done.feedid_fits).mpr holds.feedid
    have same_accesskey : stored.accesskey = jdArgs.accesskey := by
      rw [done.accesskey_stored]
      exact (overlay_string_eq_self_iff done.accesskey_fits).mpr holds.accesskey
    have same_iplist := done.served.unchanged_iff.mpr holds.iplist
    have same_version := done.fwVersion
    cases stored
    cases jdArgs
    simp only at same_magic same_feedid same_accesskey same_iplist same_version
    rw [same_magic, same_feedid, same_accesskey, same_iplist, same_version]

/-- The request is defined if everything in it fits. -/
theorem requestFits_iff : RequestFits jdArgs jDevice ↔ ∃ stored feedid accesskey server,
    Provisioned jDevice jdArgs stored feedid accesskey server ∧
      ((∃ servers, server = .array servers) ∨ stored = jdArgs) := by
  constructor
  · rintro ⟨feedid, accesskey, server, feedid_member, accesskey_member, server_member, feedid_fits,
      accesskey_fits, servers_fit, kind⟩
    obtain ⟨iplist, served⟩ := (@serversFit_iff jdArgs.iplist _).mp servers_fit
    have done : Provisioned jDevice jdArgs ⟨jdArgs.magic.overlay 0 (ascii "HF_JD".toList),
        jdArgs.feedid.overlay 0 (terminated feedid.bytes),
        jdArgs.accesskey.overlay 0 (terminated accesskey.bytes), iplist, jdArgs.fwVersion⟩
        feedid accesskey server :=
      ⟨feedid_member, accesskey_member, server_member, feedid_fits, accesskey_fits, served, rfl, rfl,
        rfl, rfl⟩
    exact ⟨_, feedid, accesskey, server, done, kind.imp_right done.unchanged_iff.mpr⟩
  · rintro ⟨stored, feedid, accesskey, server, done, kind⟩
    exact ⟨feedid, accesskey, server, done.feedid_member, done.accesskey_member, done.server_member,
      done.feedid_fits, done.accesskey_fits, serversFit_iff.mpr ⟨_, done.served⟩,
      kind.imp_right done.unchanged_iff.mp⟩

/-- Only a request of type 3 in the first two minutes touches `jdArgs`. -/
theorem appSearchDevice_jdArgs (other : ∀ jDevice,
    packetAnalyse env.cJson.parse rxMessage rLength = some (3, jDevice) → ¬ Provisioning clock s) :
    (appSearchDevice env clock rxMessage rLength s).jdArgs = some s.jdArgs := by
  rw [appSearchDevice]
  split
  · rfl
  · rename_i type jDevice accepted
    split_ifs with search early request early
    · rfl
    · rfl
    · rw [request] at accepted
      exact absurd early (other jDevice accepted)
    · rfl
    · rfl

theorem appSearchDevice_provision
    (accepted : packetAnalyse env.cJson.parse rxMessage rLength = some (3, jDevice))
    (early : Provisioning clock s) :
    appSearchDevice env clock rxMessage rLength s = s.provision env jDevice := by
  rw [appSearchDevice, accepted]
  dsimp only
  rw [if_neg (by decide), if_pos rfl, if_pos early]

/-- What a request that is defined leaves. -/
theorem JdDevice.provision_of_some (done : ShuangFa.provision jDevice s.jdArgs = some stored) :
    s.provision env jDevice = ⟨some stored, s.smtlk,
      some (hffileUserbinWrite jdConfigOffset stored.image s.userbin),
      jdAnswer env 4 confirmation⟩ := by
  rw [JdDevice.provision, done]

theorem JdDevice.provision_jdArgs :
    (s.provision env jDevice).jdArgs = ShuangFa.provision jDevice s.jdArgs := by
  rw [JdDevice.provision]
  split
  · rename_i undefined
    exact undefined.symm
  · rename_i stored done
    exact done.symm

end Requests

/-- A datagram leaves `jdArgs` as they are or provisions the device as a whole if and only if it is
not a request of type 3 in the first two minutes, or what it requests fits. -/
theorem provisionsWhole_iff (env : JdUdpEnvironment) (clock : ℕ) (rxMessage : View) (rLength : ℕ)
    (s : JdDevice) : ProvisionsWhole env clock rxMessage rLength s ↔
      ∀ jDevice, packetAnalyse env.cJson.parse rxMessage rLength = some (3, jDevice) →
        Provisioning clock s → RequestFits s.jdArgs jDevice := by
  constructor
  · intro whole jDevice accepted early
    rw [ProvisionsWhole, appSearchDevice_provision accepted early, JdDevice.provision_jdArgs] at whole
    rw [requestFits_iff]
    rcases whole with unchanged |
      ⟨document, _, _, servers, stored, accepted_document, _, _, array, result, _⟩
    · obtain ⟨feedid, accesskey, server, done⟩ := provision_eq_some_iff.mp unchanged
      exact ⟨_, feedid, accesskey, server, done, .inr rfl⟩
    · obtain rfl : jDevice = document :=
        (Prod.mk.inj (Option.some.inj (accepted.symm.trans accepted_document))).2
      rw [JdDevice.provision_jdArgs] at result
      obtain ⟨feedid, accesskey, server, done⟩ := provision_eq_some_iff.mp result
      have same := Option.some.inj (done.server_member.symm.trans array)
      exact ⟨_, feedid, accesskey, server, done, .inl ⟨servers, same⟩⟩
  · intro fits
    by_cases request : ∀ jDevice,
        packetAnalyse env.cJson.parse rxMessage rLength = some (3, jDevice) → ¬ Provisioning clock s
    · exact .inl (appSearchDevice_jdArgs request)
    · simp only [not_forall, not_not] at request
      obtain ⟨jDevice, accepted, early⟩ := request
      obtain ⟨stored, feedid, accesskey, server, done, kind⟩ :=
        requestFits_iff.mp (fits jDevice accepted early)
      have result := provision_eq_some_iff.mpr ⟨feedid, accesskey, server, done⟩
      rw [ProvisionsWhole, appSearchDevice_provision accepted early, JdDevice.provision_of_some result]
      rcases kind with ⟨servers, rfl⟩ | rfl
      · exact .inr ⟨jDevice, feedid, accesskey, servers, stored, accepted, done.feedid_member,
          done.accesskey_member, done.server_member, rfl, done.holds, rfl⟩
      · exact .inl rfl

/-- A request with three servers, behind a digit and three zeros. -/
def threeServers : View :=
  .ofList (ascii ("3000\x7b\"feedid\":\"f\",\"accesskey\":\"k\"," ++
    "\"server\":[\"a\",\"b\",\"c\"]\x7d").toList)

def threeServersDocument : CJson := .object [(literal "feedid", .string (literal "f")),
  (literal "accesskey", .string (literal "k")), (literal "server",
    .array [.string (literal "a"), .string (literal "b"), .string (literal "c")])]

/-- A device that is given three servers. -/
def threeServersEnvironment : JdUdpEnvironment :=
  ⟨⟨fun _ => some threeServersDocument, fun _ => literal "\x7b\x7d"⟩, literal "5IUP6T",
    literal "ACCF23000000"⟩

/-- The third server has no entry. -/
theorem provisionsWhole_fails : ¬ ∀ (env : JdUdpEnvironment) (clock : ℕ) (rxMessage : View)
    (rLength : ℕ) (s : JdDevice), ProvisionsWhole env clock rxMessage rLength s := by
  intro all
  have accepted : packetAnalyse threeServersEnvironment.cJson.parse threeServers 57 =
      some (3, threeServersDocument) := by
    have digit : threeServers 0 = 51 := rfl
    rw [packetAnalyse_digit _ digit ⟨rfl, rfl, rfl⟩]
    rfl
  have undefined : provision threeServersDocument JdNVargs.zero = none := by decide +kernel
  have whole := all threeServersEnvironment 1000 threeServers 57 .fresh
  rw [ProvisionsWhole, appSearchDevice_provision accepted ⟨by decide, rfl⟩] at whole
  rcases whole with unchanged | ⟨_, _, _, _, _, _, _, _, _, result, _⟩
  · rw [JdDevice.provision_jdArgs] at unchanged
    exact Option.some_ne_none _ (unchanged.symm.trans undefined)
  · rw [JdDevice.provision_jdArgs] at result
    exact Option.some_ne_none _ (result.symm.trans undefined)

end ShuangFa
