import Mathlib.Data.Finset.Basic
import ShuangFa.Model.JdLink
import ShuangFa.Soundness.ServerAddress

/-! # The socket of the JD link

Between the iterations the open socket is the one of the link. Everything that sends and reads keeps
it or closes it. A socket for which the TLS library has no context, no object or no success belongs to
nobody: `ssl_connect` does not close it, and the next iteration opens another one.
-/

namespace ShuangFa

open Memory Coding Machine

/-- The link's socket is the only one that is open. -/
def SocketsOwned (s : JdLink) : Prop :=
  s.sockets = if s.sslData.fd = -1 then ∅ else {s.sslData.fd}

instance : DecidablePred SocketsOwned := fun _ => inferInstanceAs (Decidable (_ = _))

/-- A connection is made: the server is found, and there is a socket that is connected to it. -/
structure Dials (d : DoubleArithmetic) (server : JdServer) (e : JdIteration) : Prop where
  address : ∃ found, serverAddress d e.jdArgs e.sslServer server = some found ∧ found.1 ≠ -1
  socket : 0 ≤ e.socket
  connect : e.connect ≠ -1

/-- An iteration needs a connection and gets it. -/
structure Connects (d : DoubleArithmetic) (s : JdLink) (e : JdIteration) : Prop where
  running : e.u32StopJdTask ≠ 1
  router : e.linkstRouter = true
  needed : (s.sslData.fd = -1 ∨ s.sslData.ssl = false) ∨
    e.linkstInternet = false ∧ e.linkstCloud = true
  dials : Dials d s.server e

/-- The TLS library takes a socket. -/
def JdIteration.TlsTakes (e : JdIteration) : Prop :=
  e.ctxNew = true ∧ e.sslNew = true ∧ e.setFd = 1

/-- Where there is a connection, the TLS library takes its socket. -/
def TakesSocket (d : DoubleArithmetic) (s : JdLink) : JdLinkEvent → Prop
  | .iteration e => Connects d s e → e.TlsTakes
  | .upload _ => True

variable {d : DoubleArithmetic} {e : JdIteration} {s t : JdLink}

theorem socketsOwned_of_closed (fd : s.sslData.fd = -1) : SocketsOwned s ↔ s.sockets = ∅ := by
  rw [SocketsOwned, if_pos fd]

theorem socketsOwned_of_open (fd : s.sslData.fd ≠ -1) : SocketsOwned s ↔ s.sockets = {s.sslData.fd} := by
  rw [SocketsOwned, if_neg fd]

section Closing

/-- Closing the link leaves no socket. -/
theorem SocketsOwned.sslClose_sockets (owned : SocketsOwned s) : (sslClose s).sockets = ∅ := by
  rw [sslClose]
  rcases eq_or_ne s.sslData.fd (-1) with closed | linked
  · rw [if_neg (not_not.mpr closed)]
    exact (socketsOwned_of_closed closed).mp owned
  · rw [if_pos linked, (socketsOwned_of_open linked).mp owned, Finset.erase_singleton]

theorem SocketsOwned.sslClose (owned : SocketsOwned s) : SocketsOwned (sslClose s) :=
  (socketsOwned_of_closed rfl).mpr owned.sslClose_sockets

/-- The check says whether the link has to be connected; where it has, nothing is left open. -/
theorem SocketsOwned.sslCheck (owned : SocketsOwned s) :
    (s.sslData.fd = -1 ∨ s.sslData.ssl = false) ∧ (sslCheck s).1 = 1 ∧
        (sslCheck s).2.sslData.fd = -1 ∧ (sslCheck s).2.sockets = ∅ ∨
      ¬ (s.sslData.fd = -1 ∨ s.sslData.ssl = false) ∧ sslCheck s = (0, s) := by
  rw [ShuangFa.sslCheck]
  split_ifs with closed bare
  · exact .inl ⟨.inl closed, rfl, closed, (socketsOwned_of_closed closed).mp owned⟩
  · refine .inl ⟨.inr bare, rfl, rfl, ?_⟩
    rw [(socketsOwned_of_open closed).mp owned]
    exact Finset.erase_singleton _
  · exact .inr ⟨not_or.mpr ⟨closed, bare⟩, rfl⟩

end Closing

section Serving

/-- Sending keeps the link or closes it. -/
theorem SocketsOwned.jdsslSendLoop (owned : SocketsOwned s) {rounds : List SendRound}
    {retransmission : ℕ} {sent : ℤ × JdLink}
    (returns : jdsslSendLoop s retransmission rounds = some sent) : SocketsOwned sent.2 := by
  induction rounds generalizing retransmission with
  | nil => cases returns
  | cons round rounds ih =>
    rw [ShuangFa.jdsslSendLoop] at returns
    split_ifs at returns
    · cases returns
      exact owned
    · cases returns
      exact owned
    · cases returns
      exact owned.sslClose
    · exact ih returns
    · cases returns
      exact owned
    · exact ih returns
    · cases returns
      exact owned

theorem SocketsOwned.jdsslSend (owned : SocketsOwned s) {rounds : List SendRound}
    {sent : ℤ × JdLink} (returns : jdsslSend rounds s = some sent) : SocketsOwned sent.2 :=
  owned.jdsslSendLoop returns

/-- A command keeps the link or closes it. -/
theorem SocketsOwned.jdCmdEffects (owned : SocketsOwned s) {effects : List JdEffect}
    {answers : List (List SendRound)} (done : jdCmdEffects effects answers s = some t) :
    SocketsOwned t := by
  induction effects generalizing s answers with
  | nil =>
    cases done
    exact owned
  | cons effect effects ih =>
    cases effect with
    | hfsysReset => cases done
    | jdsslSend text =>
      cases answers with
      | nil => cases done
      | cons rounds answers =>
        obtain ⟨sent, returns, rest⟩ := Option.bind_eq_some_iff.mp done
        exact ih (owned.jdsslSend returns) rest
    | setNetworkState | hfuartSend | cyaSslWrite | hffileUserbinWrite => exact ih owned done

theorem SocketsOwned.jdsslReceive (owned : SocketsOwned s) (done : jdsslReceive e s = some t) :
    SocketsOwned t := by
  rw [ShuangFa.jdsslReceive] at done
  split_ifs at done
  · cases done
    exact owned.sslClose
  · obtain ⟨text, _, done⟩ := Option.bind_eq_some_iff.mp done
    obtain ⟨pbuf, _, done⟩ := Option.bind_eq_some_iff.mp done
    obtain ⟨_, _, done⟩ := Option.bind_eq_some_iff.mp done
    exact owned.jdCmdEffects done
  · cases done
    exact owned

theorem SocketsOwned.heartTickReport (owned : SocketsOwned s)
    (done : heartTickReport e s = some t) : SocketsOwned t := by
  obtain ⟨_, _, done⟩ := Option.bind_eq_some_iff.mp done
  split_ifs at done
  · obtain ⟨sent, returns, rfl⟩ := Option.map_eq_some_iff.mp done
    exact owned.jdsslSend returns
  · cases done
    exact owned

theorem SocketsOwned.jdsslReport (owned : SocketsOwned s) (done : jdsslReport e s = some t) :
    SocketsOwned t := by
  rw [ShuangFa.jdsslReport] at done
  split_ifs at done
  · have aged : SocketsOwned { s with rhythm := e.time.2.2 } := owned
    exact aged.heartTickReport done
  · cases done
    exact owned

theorem SocketsOwned.jdsslServe (owned : SocketsOwned s) (done : jdsslServe e s = some t) :
    SocketsOwned t := by
  rw [ShuangFa.jdsslServe] at done
  split_ifs at done
  · obtain ⟨received, first, second⟩ := Option.bind_eq_some_iff.mp done
    exact (owned.jdsslReceive first).jdsslReport second
  · cases done
    exact owned

/-- Without a link there is nothing to do. -/
theorem jdsslServe_closed (closed : s.sslData.fd = -1) : jdsslServe e s = some s :=
  if_neg (not_not.mpr closed)

end Serving

section Connecting

/-- A success of the TLS library gives the link the socket, and a failure leaves the link alone. -/
theorem sslConnect_cases {fd ret : ℤ} (done : sslConnect e s fd = some (ret, t)) :
    t.sockets = s.sockets ∧ (e.TlsTakes ∧ t.sslData.fd = fd ∨
      ¬ e.TlsTakes ∧ t.sslData.fd = s.sslData.fd) := by
  rw [sslConnect] at done
  split_ifs at done with context object set
  · cases done
    exact ⟨rfl, .inr ⟨fun takes => Bool.noConfusion (context.symm.trans takes.1), rfl⟩⟩
  · cases done
    exact ⟨rfl, .inr ⟨fun takes => Bool.noConfusion (object.symm.trans takes.2.1), rfl⟩⟩
  · cases done
    exact ⟨rfl, .inl ⟨⟨Bool.eq_true_of_not_eq_false context,
      Bool.eq_true_of_not_eq_false object, set⟩, rfl⟩⟩
  · cases done
    exact ⟨rfl, .inr ⟨fun takes => set takes.2.2, rfl⟩⟩

/-- Without an open socket there is no connection, or the TLS library gets the socket of one. -/
theorem jdsslConnect_cases (closed : s.sslData.fd = -1) (empty : s.sockets = ∅)
    (done : jdsslConnect d e s = some t) :
    ¬ Dials d s.server e ∧ t.sslData.fd = -1 ∧ t.sockets = ∅ ∨
      Dials d s.server e ∧ ∃ opened ret connected, opened.sslData.fd = -1 ∧
        opened.sockets = {e.socket} ∧ sslConnect e opened e.socket = some (ret, connected) ∧
        jdsslServe e connected = some t := by
  obtain ⟨⟨ret, server⟩, found, done⟩ := Option.bind_eq_some_iff.mp done
  dsimp only at done
  split_ifs at done with missing
  · cases done
    refine .inl ⟨?_, closed, empty⟩
    rintro ⟨⟨other, same, there⟩, _, _⟩
    cases found.symm.trans same
    exact there missing
  · obtain ⟨⟨fd, opened⟩, socket, done⟩ := Option.bind_eq_some_iff.mp done
    rw [tcpConnectSslServer] at socket
    split_ifs at socket with refused taken failed
    · cases socket
      cases done
      exact .inl ⟨fun dials => absurd dials.socket (Int.not_le.mpr refused), closed, empty⟩
    · cases socket
      cases done
      refine .inl ⟨fun dials => dials.connect failed, closed, ?_⟩
      rw [empty]
      exact Finset.erase_singleton _
    · cases socket
      have valid : 0 ≤ e.socket := Int.not_lt.mp refused
      rw [if_neg (by omega)] at done
      obtain ⟨⟨ret, connected⟩, handed, done⟩ := Option.bind_eq_some_iff.mp done
      refine .inr ⟨⟨⟨_, found, missing⟩, valid, failed⟩,
        { s with server, sockets := insert e.socket s.sockets }, ret, connected, closed, ?_, handed, done⟩
      rw [empty]
      rfl

theorem SocketsOwned.jdsslOffline (owned : SocketsOwned s) : SocketsOwned (jdsslOffline e s) := by
  rw [ShuangFa.jdsslOffline]
  split_ifs
  · exact owned.sslClose
  · exact owned

/-- The link has to be connected if it was not before, or has been closed for the network. -/
theorem jdsslOffline_needed :
    ((jdsslOffline e s).sslData.fd = -1 ∨ (jdsslOffline e s).sslData.ssl = false) ↔
      (s.sslData.fd = -1 ∨ s.sslData.ssl = false) ∨
        e.linkstInternet = false ∧ e.linkstCloud = true := by
  rw [jdsslOffline]
  split_ifs with offline
  · exact iff_of_true (.inl rfl) (.inr offline)
  · exact (or_iff_left offline).symm

theorem sslCheck_server : (sslCheck (jdsslOffline e s)).2.server = s.server := by
  rw [sslCheck, jdsslOffline]
  split_ifs <;> rfl

/-- An iteration has no connection and keeps to the link's socket, or the TLS library gets the only
socket that is open. -/
theorem jdsslIteration_cases (owned : SocketsOwned s) (done : jdsslIteration d e s = some t) :
    ¬ Connects d s e ∧ SocketsOwned t ∨
      Connects d s e ∧ ∃ opened ret connected, opened.sslData.fd = -1 ∧
        opened.sockets = {e.socket} ∧ sslConnect e opened e.socket = some (ret, connected) ∧
        jdsslServe e connected = some t := by
  rw [jdsslIteration] at done
  split at done
  · cases done
  rename_i running
  split at done
  · rename_i router
    cases done
    refine .inl ⟨fun connects => Bool.noConfusion (router.symm.trans connects.router), ?_⟩
    split_ifs
    · exact owned.sslClose
    · exact owned
  · rename_i router
    have offline : SocketsOwned (jdsslOffline e s) := owned.jdsslOffline
    rcases offline.sslCheck with ⟨needed, ret, closed, empty⟩ | ⟨kept, same⟩
    · dsimp only at done
      rw [ret, if_pos (by decide)] at done
      rcases jdsslConnect_cases closed empty done with ⟨absent, without, none⟩ | ⟨dials, handed⟩
      · rw [sslCheck_server] at absent
        exact .inl ⟨fun connects => absent connects.dials, (socketsOwned_of_closed without).mpr none⟩
      · rw [sslCheck_server] at dials
        exact .inr ⟨⟨running, Bool.eq_true_of_not_eq_false router,
          jdsslOffline_needed.mp needed, dials⟩, handed⟩
    · rw [same] at done
      exact .inl ⟨fun connects => kept (jdsslOffline_needed.mpr connects.needed),
        offline.jdsslServe done⟩

end Connecting

section Runs

/-- An event that hands no socket to the TLS library in vain keeps the sockets. -/
theorem SocketsOwned.event (owned : SocketsOwned s) {event : JdLinkEvent}
    (takes : TakesSocket d s event) (step : (jdsslThread d).step? s event = some t) :
    SocketsOwned t := by
  cases event with
  | upload rounds =>
    obtain ⟨sent, returns, rfl⟩ := Option.map_eq_some_iff.mp step
    exact owned.jdsslSend returns
  | iteration e =>
    rcases jdsslIteration_cases owned step with ⟨_, kept⟩ | ⟨connects, opened, ret, connected, closed,
      only, handed, served⟩
    · exact kept
    · obtain ⟨same, ⟨_, fd⟩ | ⟨refused, _⟩⟩ := sslConnect_cases handed
      · have valid := connects.dials.socket
        have linked : SocketsOwned connected := by
          rw [socketsOwned_of_open (by omega), same, only, fd]
        exact linked.jdsslServe served
      · exact absurd (takes connects) refused

/-- A socket that the TLS library does not take stays open without the link. -/
theorem SocketsOwned.leak (owned : SocketsOwned s) {event : JdLinkEvent}
    (refused : ¬ TakesSocket d s event) (step : (jdsslThread d).step? s event = some t) :
    ¬ SocketsOwned t := by
  cases event with
  | upload rounds => exact absurd trivial refused
  | iteration e =>
    obtain ⟨connects, refused⟩ := Classical.not_imp.mp refused
    rcases jdsslIteration_cases owned step with ⟨apart, _⟩ | ⟨_, opened, ret, connected, closed, only,
      handed, served⟩
    · exact absurd connects apart
    · obtain ⟨same, ⟨takes, _⟩ | ⟨_, fd⟩⟩ := sslConnect_cases handed
      · exact absurd takes refused
      · have without : connected.sslData.fd = -1 := fd.trans closed
        cases (jdsslServe_closed without).symm.trans served
        rw [socketsOwned_of_closed without, same, only]
        exact Finset.singleton_ne_empty _

/-- Whatever happens to the link, its socket is the only one that is open after every iteration, if
and only if the TLS library takes the socket of every connection. -/
theorem socketsOwned_iff {events : List JdLinkEvent} {target : JdLink}
    (replayed : (jdsslThread d).replay? .initial events = some target) :
    (jdsslThread d).Throughout SocketsOwned .initial events ↔
      (jdsslThread d).EachStep (TakesSocket d) .initial events :=
  PartialMachine.throughout_iff_eachStep (fun _ => id)
    (fun _ _ _ owned _ takes step => owned.event takes step)
    (fun _ _ _ owned _ refused step => owned.leak refused step)
    (by decide) (fun _ _ => trivial) replayed

/-- The first connection, which the TLS library takes, with a report at once. -/
def linkedIteration : JdIteration where
  u32StopJdTask := 0
  linkstRouter := true
  linkstInternet := true
  linkstCloud := false
  jdArgs := localArgs
  sslServer := .zeros _
  socket := 3
  connect := 0
  ctxNew := true
  sslNew := true
  setFd := 1
  isSet := false
  recvlen := 0
  recvlen_lt := by decide
  sslRx := .zeros _
  past := fun _ => 0
  env := ⟨⟨fun _ => none, fun _ => .ofBytes []⟩, fun _ => (0, 0), fun _ => 0, fun _ => 0⟩
  answers := []
  time := (40000, 40000, 40000)
  rssi := 0
  report := [⟨1, true, 80, 0⟩]

theorem socketsOwned_linked : (jdsslThread exactArithmetic).Throughout SocketsOwned .initial
    [.iteration linkedIteration] := by
  have returns : ((jdsslThread exactArithmetic).replay? .initial
      [.iteration linkedIteration]).isSome := by decide +kernel
  obtain ⟨target, replayed⟩ := Option.isSome_iff_exists.mp returns
  exact (socketsOwned_iff replayed).mpr ⟨fun _ => ⟨rfl, rfl, rfl⟩, fun _ _ => trivial⟩

/-- The same connection without memory for a context. -/
def refusedIteration : JdIteration := { linkedIteration with ctxNew := false }

/-- Without memory for the context the socket stays open. -/
theorem socketsOwned_fails : ¬ ∀ (d : DoubleArithmetic) (events : List JdLinkEvent) (target : JdLink),
    (jdsslThread d).replay? .initial events = some target →
      (jdsslThread d).Throughout SocketsOwned .initial events := by
  intro all
  have returns : ((jdsslThread exactArithmetic).replay? .initial
      [.iteration refusedIteration]).isSome := by decide +kernel
  obtain ⟨target, replayed⟩ := Option.isSome_iff_exists.mp returns
  exact absurd (all exactArithmetic _ _ replayed) (by decide +kernel)

end Runs

end ShuangFa
