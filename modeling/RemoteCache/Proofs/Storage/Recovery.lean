import RemoteCache.Proofs.Server
import RemoteCache.Proofs.Storage.Client
import RemoteCache.Proofs.Storage.Interruptions

/-!
# A stale session recovers as a new one

A session that has lost its connection, or that was interrupted while it connected, may hold a handle that was used
before. It connects this handle once more, and only if that fails a new one, where a new session connects a new one
at once.

**Theorem (`recovers_as_new`).** Over a store in memory there is no other difference: whatever is asked of a session
that is neither ready nor invalid, and whatever the server becomes in the meantime, each operation ends as that of a
new session on an equal server. It leaves the same phase and the same server, and the same was said on the way: the
same commands, with what came back (`Glimpse`). How often handles are created, connected and disconnected is left out,
and so is what is logged.

The phase is compared after operations alone, since an interrupted session is connecting and a new one is unconnected
until the first of them (`interrupted_is_not_new`).

Both sessions are compared with one client (`Tracks`). What a reconnection has to do with a client is in
`Session.Readying.mirrors`: whether the old handle or a new one is connected, whether it can be is up to the server
alone, and the login over it is the same.
-/

namespace RemoteCache

open Line

/-- A store in memory without its connections. -/
def Server.bare (s : Server) : Server := { s with connected := [], waiting := [] }

/-- What is said in a call. -/
def Call.word? : Call → Option Word
  | .send _ c result => some (.sent c result)
  | .receive _ result => some (.received result)
  | .create .. | .connect .. | .disconnect _ => none

namespace Line

/-- What is said in some calls, the latest first. -/
def words (calls : List Call) : List Word := calls.filterMap Call.word?

theorem words_append (calls before : List Call) : words (calls ++ before) = words calls ++ words before :=
  List.filterMap_append

end Line

/-! ## Links to a store in memory -/

namespace Server

variable {l m : Line Server} {h : Handle} {link : Link} {before : List Word}

/-- A command does not look at connections. -/
theorem execute_bare (s : Server) (c : Command) : s.bare.execute c = ((s.execute c).1, (s.execute c).2.bare) := by
  have hfixed : s.bare.fixedAnswers = s.fixedAnswers := rfl
  unfold execute
  rw [hfixed]
  cases s.fixedAnswers.lookup c.name with
  | some answer => rfl
  | none =>
    simp only
    split <;> rfl

/-- A line is where a link is: the store is the same but for its connections, and the same has been said since. -/
structure Behind (before : List Word) (l : Line Server) (link : Link) : Prop where
  server_eq : link.server = l.peer.bare
  said_eq : link.said ++ before = words l.calls

/-- A handle is connected if the link is open. -/
def On (before : List Word) (h : Handle) (l : Line Server) (link : Link) (_ : List Command) : Prop :=
  Behind before l link ∧ (h ∈ l.peer.connected ↔ link.isOpen = true)

theorem Behind.create {options : ConnectionOptions} (hb : Behind before l link) (hs : Step l (.create h options) m) :
    Behind before m link := by
  cases hs
  exact ⟨hb.server_eq, hb.said_eq⟩

theorem Behind.disconnect (hb : Behind before l link) (hs : Step l (.disconnect h) m) :
    Behind before m link := by
  cases hs
  exact ⟨hb.server_eq, hb.said_eq⟩

/-- A connection fails as the store says; one that succeeds is on a handle that is connected. -/
theorem Behind.connect {r : Except Failure Unit} (hb : Behind before l link) (hs : Step l (.connect h r) m) :
    Behind before m link ∧ (r = .ok () ∧ link.server.connectFailure = none ∧ h ∈ m.peer.connected ∨
      ∃ f, r = .error f ∧ link.server.connectFailure = some f) := by
  have hconnect : l.peer.connect h = (r, m.peer) := hs.connect_eq
  have hsaid : link.said ++ before = words m.calls := by
    rw [hs.calls_eq, hb.said_eq]
    rfl
  have hfailure : link.server.connectFailure = l.peer.connectFailure := by
    rw [hb.server_eq]
    rfl
  unfold Server.connect at hconnect
  cases hf : l.peer.connectFailure with
  | some f =>
    simp only [hf, Prod.mk.injEq] at hconnect
    obtain ⟨rfl, hpeer⟩ := hconnect
    exact ⟨⟨hpeer ▸ hb.server_eq, hsaid⟩, .inr ⟨f, rfl, hfailure.trans hf⟩⟩
  | none =>
    simp only [hf, Prod.mk.injEq] at hconnect
    obtain ⟨rfl, hpeer⟩ := hconnect
    refine ⟨⟨?_, hsaid⟩, .inl ⟨rfl, hfailure.trans hf, ?_⟩⟩
    · rw [← hpeer, hb.server_eq, Server.bare, hf]
      rfl
    · rw [← hpeer]
      exact List.mem_cons_self

/-- What sending does: nothing, or it breaks the connection and a failure is raised, or the command is executed. -/
inductive Sending (s : Server) (h : Handle) (c : Command) : Except Failure Unit × Server → Prop
  | closed : h ∉ s.connected → Sending s h c (.error Link.closed, s)
  | broken {f : Failure} : h ∈ s.connected → s.commandFailures.lookup c.name = some f →
      Sending s h c (.error f, { s.disconnect h with commandFailures := Entries.drop s.commandFailures c.name })
  | executed : h ∈ s.connected → s.commandFailures.lookup c.name = none → Sending s h c
      (.ok (), { (s.execute c).2 with waiting := Entries.put (s.execute c).2.waiting h (s.execute c).1 })

theorem sending (s : Server) (h : Handle) (c : Command) : Sending s h c (s.send h c) := by
  unfold Server.send
  by_cases hh : h ∈ s.connected
  · rw [if_neg (by simpa using hh)]
    cases hf : s.commandFailures.lookup c.name with
    | some f => exact .broken hh hf
    | none => exact .executed hh hf
  · rw [if_pos hh]
    exact .closed hh

/-- **An exchange with a store in memory goes as over a link.** -/
theorem keeps_on : Keeps (On before) False := by
  intro h c l m link rest calls r hon hex hcalls
  refine .inl ?_
  obtain ⟨⟨hserver, hsaid⟩, hopen⟩ := hon
  have hlookup : link.server.commandFailures.lookup c.name = l.peer.commandFailures.lookup c.name := by
    rw [hserver]
    rfl
  have hcalled : m.calls = calls ++ l.calls := hcalls.calls_eq
  cases hex with
  | unsent f =>
    have hsend : Sending l.peer h c (.error f, m.peer) := hcalls.single.send_eq ▸ sending l.peer h c
    generalize hpeer : m.peer = peer at hsend
    cases hsend with
    | closed hh =>
      have hclosed : link.isOpen = false := by simpa using mt hopen.2 hh
      refine ⟨_, by rw [Link.exchange, hclosed]; rfl, ⟨?_, ?_⟩, ?_⟩
      · exact hserver.trans (congrArg bare hpeer.symm)
      · rw [hcalled, words_append, ← hsaid]
        rfl
      · rw [hpeer]
        exact iff_of_false hh nofun
    | broken hh hf =>
      refine ⟨_, by rw [Link.exchange, hopen.1 hh, hlookup, hf]; rfl, ⟨?_, ?_⟩, ?_⟩
      · rw [hserver, hpeer]
        rfl
      · rw [hcalled, words_append, ← hsaid]
        rfl
      · rw [hpeer]
        simp [disconnect]
  | answered r =>
    obtain ⟨k, hsend, hreceive⟩ := hcalls.last
    have hsent : Sending l.peer h c (.ok (), k.peer) := hsend.single.send_eq ▸ sending l.peer h c
    have hreceived : k.peer.receive h = (r, m.peer) := hreceive.receive_eq
    generalize k.peer = peer at hsent hreceived
    cases hsent with
    | executed hh hf =>
      unfold Server.receive at hreceived
      simp only [Entries.lookup_put, if_true, Option.getD_some, Prod.mk.injEq] at hreceived
      obtain ⟨rfl, hpeer⟩ := hreceived
      have hexecute : link.server.execute c = ((l.peer.execute c).1, (l.peer.execute c).2.bare) := by
        rw [hserver, execute_bare]
      refine ⟨_, by rw [Link.exchange, hopen.1 hh, hlookup, hf, hexecute]; rfl, ⟨?_, ?_⟩, ?_⟩
      · rw [← hpeer]
        rfl
      · rw [hcalled, words_append, ← hsaid]
        rfl
      · rw [← hpeer, execute_eq]
        exact iff_of_true hh rfl

/-- A session and its line are those of a client. The handle of a ready session is connected if the link is open. -/
structure Mirrors (before : List Word) (s : Session) (l : Line Server) (link : Link) : Prop where
  behind : Behind before l link
  connected : s.phase = .ready → ∃ h, s.handle = some h ∧ (h ∈ l.peer.connected ↔ link.isOpen = true)

end Server

/-! ## Sessions -/

namespace Session

open Server

variable {s t : Session} {h n : Handle} {calls : List Call} {r : Answered} {l m : Line Server} {link : Link}
  {before : List Word}

/-- A login over a handle that has just been connected. -/
theorem Login.mirrors (hl : Login s h calls r t) (hcalls : Leads l calls m) (hh : s.handle = some h)
    (hb : Behind before l link) (hconnected : h ∈ l.peer.connected) :
    ∃ link', (Client.mk s.bare { link with isOpen := true }).login = (r, ⟨t.bare, link'⟩) ∧
      Mirrors before t m link' := by
  have hon : On before h l { link with isOpen := true } (asks calls ++ []) :=
    ⟨⟨hb.server_eq, hb.said_eq⟩, iff_of_true hconnected rfl⟩
  obtain ⟨link', hlogin, hend⟩ := hl.keeps_up keeps_on hcalls hh hon
  refine ⟨link', hlogin, ?_⟩
  rcases hend with ⟨⟨hb', hopen⟩, ht⟩ | ⟨hinvalid, hend⟩
  · exact ⟨hb', fun _ => ⟨h, ht, hopen⟩⟩
  · obtain ⟨m', ⟨hb', -⟩, hdisconnect⟩ := hend.resolve_left id
    exact ⟨hb'.disconnect hdisconnect, fun hready => by simp [hinvalid] at hready⟩

theorem Opening.mirrors (ho : Opening s n calls r t) (hcalls : Leads l calls m) (hphase : s.phase ≠ .ready)
    (hb : Behind before l link) :
    ∃ link', (Client.mk s.bare link).connect = (r, ⟨t.bare, link'⟩) ∧ Mirrors before t m link' := by
  cases ho with
  | unsupported hscheme =>
    obtain rfl := hcalls.eq_of_nil
    exact ⟨link, Client.connect_of_unsupported hscheme link, hb, fun hready => absurd hready hphase⟩
  | nowhere htcp hunix hscheme =>
    obtain rfl := hcalls.eq_of_nil
    exact ⟨link, Client.connect_of_nowhere hscheme htcp hunix link, hb, nofun⟩
  | opened hplace hl =>
    obtain ⟨k, hk, hlogin⟩ := hcalls.split
    obtain ⟨k', hcreate, hconnect⟩ := hk.last
    obtain ⟨hb', ⟨-, hnone, hconnected⟩ | ⟨f, hf, -⟩⟩ := (hb.create hcreate.single).connect hconnect
    · rw [Client.connect_eq hplace, hnone]
      exact hl.mirrors hlogin rfl hb' hconnected
    · cases hf
  | refused hf hplace =>
    obtain ⟨k, hk, hdisconnect⟩ := hcalls.last
    obtain ⟨k', hcreate, hconnect⟩ := hk.last
    obtain ⟨hb', ⟨hok, -⟩ | ⟨f, hfailure, hsome⟩⟩ := (hb.create hcreate.single).connect hconnect
    · cases hok
    · cases hfailure
      refine ⟨link, ?_, hb'.disconnect hdisconnect, nofun⟩
      simp only [Client.connect_eq hplace, hsome, hf, if_true]
  | interrupted hf hplace =>
    obtain ⟨k', hcreate, hconnect⟩ := hcalls.last
    obtain ⟨hb', ⟨hok, -⟩ | ⟨f, hfailure, hsome⟩⟩ := (hb.create hcreate.single).connect hconnect
    · cases hok
    · cases hfailure
      refine ⟨link, ?_, hb', fun hready => absurd hready hphase⟩
      simp [Client.connect_eq hplace, hsome, hf]

/-- **A session that reconnects is made ready as the client, which connects anew.** -/
theorem Readying.mirrors (hr : Readying s n calls r t) (hcalls : Leads l calls m) (hplaced : s.Placed)
    (hx : Mirrors before s l link) :
    ∃ link', (Client.mk s.bare link).makeReady = (r, ⟨t.bare, link'⟩) ∧ Mirrors before t m link' := by
  cases hr with
  | ready hready =>
    obtain rfl := hcalls.eq_of_nil
    exact ⟨link, Client.makeReady_of_ready hready, hx⟩
  | invalid hinvalid =>
    obtain rfl := hcalls.eq_of_nil
    exact ⟨link, Client.makeReady_of_invalid hinvalid, hx⟩
  | fresh hready hinvalid _ ho =>
    rw [Client.makeReady_eq hready hinvalid]
    exact ho.mirrors hcalls (by simp) hx.behind
  | reopened hready hinvalid hh hl =>
    obtain ⟨k, hk, hlogin⟩ := hcalls.split
    obtain ⟨k', hdisconnect, hconnect⟩ := hk.last
    have hplace : ({ s with phase := .connecting } : Session).endpoint.Connectable := hplaced _ hh
    rw [Client.makeReady_eq hready hinvalid, Client.connect_eq hplace]
    obtain ⟨hb', ⟨-, hnone, hconnected⟩ | ⟨f, hf, -⟩⟩ := (hx.behind.disconnect hdisconnect.single).connect hconnect
    · rw [hnone]
      exact hl.mirrors hlogin hh hb' hconnected
    · cases hf
  | replaced hready hinvalid hh hf ho =>
    obtain ⟨k, hk, hopening⟩ := hcalls.split
    obtain ⟨k', hk', hdisconnect'⟩ := hk.last
    obtain ⟨k'', hdisconnect, hconnect⟩ := hk'.last
    rw [Client.makeReady_eq hready hinvalid]
    have hb' := ((hx.behind.disconnect hdisconnect.single).connect hconnect).1.disconnect hdisconnect'
    exact ho.mirrors hopening (by simp) hb'
  | interrupted hready hinvalid hh hf =>
    obtain ⟨k', hdisconnect, hconnect⟩ := hcalls.last
    have hplace : ({ s with phase := .connecting } : Session).endpoint.Connectable := hplaced _ hh
    rw [Client.makeReady_eq hready hinvalid, Client.connect_eq hplace]
    obtain ⟨hb', ⟨hok, -⟩ | ⟨f, hfailure, hsome⟩⟩ := (hx.behind.disconnect hdisconnect.single).connect hconnect
    · cases hok
    · cases hfailure
      refine ⟨link, ?_, hb', nofun⟩
      simp [hsome, hf]

end Session

/-! ## Operations -/

namespace Storage

open Server

variable {s t : Session} {n : Handle} {op : Operation} {calls : List Call} {l m : Line Server} {link : Link}
  {before : List Word}

/-- **An operation on a store in memory goes as that of the client.** -/
theorem Operating.mirrors {r : op.Result} (ho : Operating s n op calls r t) (hcalls : Leads l calls m)
    (hs : s.Sound) (hplaced : s.Placed) (hx : Mirrors before s l link) :
    ∃ link', (Client.mk s.bare link).perform op = (r, ⟨t.bare, link'⟩) ∧ Mirrors before t m link' := by
  cases ho with
  | closed hc =>
    refine ⟨link, ?_, ?_⟩
    · cases hc with
      | idle | held => rfl
    · cases hc with
      | idle =>
        obtain rfl := hcalls.eq_of_nil
        exact ⟨hx.behind, nofun⟩
      | held => exact ⟨hx.behind.disconnect hcalls.single, nofun⟩
  | interrupted hop hr =>
    obtain ⟨link', hready, hmirrors⟩ := hr.mirrors hcalls hplaced hx
    refine ⟨link', ?_, hmirrors⟩
    rw [Client.perform_eq _ hop, hready]
  | unready hop hr =>
    obtain ⟨link', hready, hmirrors⟩ := hr.mirrors hcalls hplaced hx
    refine ⟨link', ?_, hmirrors⟩
    rw [Client.perform_eq _ hop, hready]
  | served hr hserve =>
    obtain ⟨k, hk, hmore⟩ := hcalls.split
    obtain ⟨link', hready, hmirrors⟩ := hr.mirrors hk hplaced hx
    obtain ⟨hphase, -⟩ := hr.ready_of_none hs
    obtain ⟨h, hh, hopen⟩ := hmirrors.connected hphase
    have hon (rest : List Command) : On before h k link' rest := ⟨hmirrors.behind, hopen⟩
    obtain ⟨link'', hserved, ⟨hb, hopen'⟩, ht⟩ := hserve.keeps_up keeps_on hmore hphase hh
      (hon (asks _ ++ []))
    refine ⟨link'', ?_, hb, fun _ => ⟨h, ht, hopen'⟩⟩
    rw [Client.perform_eq _ hserve.ne_close, hready]
    exact hserved

/-! ## What can be seen of a store -/

/-- What happens to a store: it is asked for something, or the server becomes another one behind its connections. -/
inductive Move
  | operate (op : Operation)
  | change (server : Server)

/-- What can be seen after a move: the server, and of an operation what came of it, the phase that it leaves and what
was said. -/
inductive Glimpse
  | operated (attempt : Attempt) (phase : Session.Phase) (server : Server) (said : List Word)
  | changed (server : Server)

/-- What was said on a line since another state of it. -/
def saidSince (l m : Line Server) : List Word := words (m.calls.take (m.calls.length - l.calls.length))

/-- The server becomes another one; what is connected stays so, and what waits is still to be received. -/
def change (x : Scene Server) (server : Server) : Scene Server :=
  x.withPeer { server with connected := x.line.peer.connected, waiting := x.line.peer.waiting }

namespace Move

/-- The scene behind a move. -/
def apply : Move → Scene Server → Scene Server
  | .operate op, x => (op.perform x).2
  | .change server, x => Storage.change x server

def glimpse : Move → Scene Server → Glimpse
  | .operate op, x =>
    let y := (op.perform x).2
    .operated ⟨op, (op.perform x).1⟩ y.session.phase y.line.peer.bare (saidSince x.line y.line)
  | .change server, _ => .changed server.bare

end Move

/-- What can be seen move by move. -/
def glimpses : List Move → Scene Server → List Glimpse
  | [], _ => []
  | move :: moves, x => move.glimpse x :: glimpses moves (move.apply x)

theorem saidSince_eq (hcalls : Leads l calls m) : saidSince l m = words calls := by
  unfold saidSince
  rw [hcalls.calls_eq]
  simp

/-- A scene is that of a client, whatever has been said. -/
structure Tracks (x : Scene Server) (k : Client) : Prop where
  sound : x.session.Sound
  placed : x.session.Placed
  session_eq : k.session = x.session.bare
  mirrors : Mirrors (words x.line.calls) x.session x.line { k.link with said := [] }

theorem Tracks.perform {x : Scene Server} {k : Client} (hx : Tracks x k) (op : Operation) :
    let k' := (Client.mk k.session { k.link with said := [] }).perform op
    (op.perform x).1 = k'.1 ∧ (op.perform x).2.session.phase = k'.2.session.phase ∧
      (op.perform x).2.line.peer.bare = k'.2.link.server ∧
      saidSince x.line (op.perform x).2.line = k'.2.link.said ∧ Tracks (op.perform x).2 k'.2 := by
  intro k'
  obtain ⟨calls, hcourse, hcalls⟩ := op.course x
  obtain ⟨link', hperform, hmirrors⟩ := hcourse.mirrors hcalls hx.sound hx.placed hx.mirrors
  have hk' : k' = _ := (congrArg (fun s => (Client.mk s _).perform op) hx.session_eq).trans hperform
  have hsaid : saidSince x.line (op.perform x).2.line = link'.said := by
    rw [saidSince_eq hcalls]
    apply List.append_cancel_right
    rw [hmirrors.behind.said_eq, ← words_append, hcalls.calls_eq]
  rw [hk']
  exact ⟨rfl, rfl, hmirrors.behind.server_eq.symm, hsaid,
    hcourse.sound hx.sound, hcourse.placed hx.placed, rfl, ⟨hmirrors.behind.server_eq, rfl⟩, hmirrors.connected⟩

theorem Tracks.change {x : Scene Server} {k : Client} (hx : Tracks x k) (server : Server) :
    Tracks (change x server) { k with link := { k.link with server := server.bare } } :=
  ⟨hx.sound, hx.placed, hx.session_eq, ⟨rfl, rfl⟩, hx.mirrors.connected⟩

/-- A fresh scene is that of a new client. -/
theorem tracks_fresh (endpoint : Endpoint) (settings : BackendSettings) (server : Server) (logging : Logging.State) :
    Tracks (Scene.fresh endpoint settings server logging) ⟨{ endpoint, settings }, { server := server.bare }⟩ where
  sound := Scene.sound_fresh ..
  placed _ hh := by simp [Scene.fresh] at hh
  session_eq := rfl
  mirrors := ⟨⟨rfl, rfl⟩, by simp [Scene.fresh]⟩

/-- Of two scenes that are those of one client the same is seen. -/
theorem Tracks.glimpses_eq {x y : Scene Server} {k : Client} (hx : Tracks x k) (hy : Tracks y k) (moves : List Move) :
    glimpses moves x = glimpses moves y := by
  induction moves generalizing x y k with
  | nil => rfl
  | cons move moves ih =>
    cases move with
    | operate op =>
      obtain ⟨hresult, hphase, hserver, hsaid, htracks⟩ := hx.perform op
      obtain ⟨hresult', hphase', hserver', hsaid', htracks'⟩ := hy.perform op
      simp only [glimpses, Move.glimpse]
      rw [hresult, hresult', hphase, hphase', hserver, hserver', hsaid, hsaid']
      exact congrArg (List.cons _) (ih htracks htracks')
    | change server => exact congrArg (List.cons _) (ih (hx.change server) (hy.change server))

/-- That a session was interrupted while connecting cannot be seen. -/
theorem glimpses_unconnected {x : Scene Server} (hphase : x.session.phase = .connecting) (moves : List Move) :
    glimpses moves x = glimpses moves x.unconnected := by
  induction moves generalizing x with
  | nil => rfl
  | cons move moves ih =>
    cases move with
    | operate op =>
      simp only [glimpses, Move.glimpse, Move.apply]
      rw [op.perform_unconnected hphase]
      rfl
    | change server => exact congrArg (List.cons _) (ih (x := change x server) hphase)

/-- **A session that is neither ready nor invalid recovers as a new one**: of a store that was used in any way before,
the same is seen from then on as of a new one on an equal server. -/
theorem recovers_as_new {endpoint : Endpoint} {settings : BackendSettings} {server server' : Server}
    {logging logging' : Logging.State} {attempts : List Attempt} {x : Scene Server}
    (hrun : Run (fun _ _ => True) (Scene.fresh endpoint settings server logging) attempts x)
    (hready : x.session.phase ≠ .ready) (hinvalid : x.session.phase ≠ .invalid)
    (hserver : server'.bare = x.line.peer.bare) (moves : List Move) :
    glimpses moves x = glimpses moves (Scene.fresh endpoint settings server' logging') := by
  have hcontinues : (Scene.fresh endpoint settings server logging).session.Continues x.session := hrun.continues
  have hplaced : x.session.Placed :=
    hrun.preserves_session (fun _ hh => by simp [Scene.fresh] at hh) fun ho hs => ho.placed hs
  let k : Client := ⟨{ endpoint, settings }, { server := x.line.peer.bare }⟩
  have hfresh : Tracks (Scene.fresh endpoint settings server' logging') k := by
    show Tracks _ ⟨{ endpoint, settings }, { server := x.line.peer.bare }⟩
    rw [← hserver]
    exact tracks_fresh endpoint settings server' logging'
  have hx : Tracks x.unconnected k := by
    refine ⟨⟨by simp [Scene.unconnected], by simp [Scene.unconnected]⟩, hplaced, ?_, ⟨rfl, rfl⟩,
      by simp [Scene.unconnected]⟩
    show _ = Session.mk x.session.endpoint x.session.settings .unconnected none
    rw [hcontinues.endpoint_eq, hcontinues.settings_eq]
    rfl
  have hstart : glimpses moves x = glimpses moves x.unconnected := by
    cases hphase : x.session.phase with
    | ready => exact absurd hphase hready
    | invalid => exact absurd hphase hinvalid
    | connecting => exact glimpses_unconnected hphase moves
    | unconnected => rw [Scene.unconnected, ← hphase]
  exact hstart.trans (hx.glimpses_eq hfresh moves)

/-- A session whose latest command was lost holds the handle of that command, and recovers as a new one. -/
theorem recovers_as_new_after_loss :
    let server : Server := { commandFailures := [("GET", .store .connection "Connection lost.")] }
    let get : Operation := .get ⟨List.replicate 20 0, rfl⟩
    let x := (get.perform (Scene.onHost server)).2
    x.session.phase = .unconnected ∧ x.session.handle = some 0 ∧
      ∀ moves, glimpses moves x = glimpses moves (Scene.onHost ({} : Server)) := by
  intro server get x
  have hrun : Run (fun _ _ => True) (Scene.onHost server) _ x := .operate get .start
  have hphase : x.session.phase = .unconnected := rfl
  refine ⟨hphase, rfl, fun moves => ?_⟩
  exact recovers_as_new hrun (by simp [hphase]) (by simp [hphase]) rfl moves

/-- The phase of a session that was interrupted while it logged in is not that of a new one before its next
operation, even if the server has become another one in the meantime. -/
theorem interrupted_is_not_new :
    ¬ ∀ {endpoint : Endpoint} {settings : BackendSettings} {server : Server} {logging : Logging.State}
      {attempts : List Attempt} {x : Scene Server},
      Run (fun _ _ => True) (Scene.fresh endpoint settings server logging) attempts x →
      x.session.phase ≠ .ready → x.session.phase ≠ .invalid → ∀ move : Move,
      (move.apply x).session.phase =
        (move.apply (Scene.fresh endpoint settings x.line.peer logging)).session.phase := by
  intro hsame
  let server : Server := { password := some "secret", commandFailures := [("AUTH", .foreign "RuntimeError" "stop")] }
  let get : Operation := .get ⟨List.replicate 20 0, rfl⟩
  let x := (get.perform (Scene.onHost server (some "secret"))).2
  have hrun : Run (fun _ _ => True) (Scene.onHost server (some "secret")) _ x := .operate get .start
  have hphase : x.session.phase = .connecting := by decide
  have hchanged := hsame hrun (by simp [hphase]) (by simp [hphase]) (.change {})
  exact absurd hchanged (by decide)

end Storage
end RemoteCache
