import RemoteCache.Wire
import RemoteCache.Proofs.Resp.Frames
import RemoteCache.Proofs.Storage.MapRefinement
import RemoteCache.Proofs.Storage.Recovery

/-!
# Sockets give the answers of a store in memory

A store is used over sockets, where commands are answered in frames that arrive in pieces, or in memory, where they are
answered at once. **Theorem (`same_over_sockets`).** If each command that is sent is answered with the frame of what the
store in memory answers, cut anyhow (`Answering`), then the same comes of all operations, and each leaves the same
phase. A value that has been written is read again byte by byte, unless its digest is written or removed in between or
the store is closed. That a store reads these commands from what is written to it is `sent_commands_read`.

Both are compared with one client (`Client`). On the side of the sockets this is `Wire.keeps_on`: an exchange reads one
frame and leaves the stream empty for the next. Only the text of a refused login is not that of the link, and nothing
that comes of an operation depends on it. Nothing is made to fail (`Server.Plain`), so the socket that a session has
opened stays open while the session is ready, and a session that is neither ready nor invalid has not opened any
(`Wire.Attends`).
-/

namespace RemoteCache

open Line

theorem Answer.raised_of_ne {a : Answer} (ha : ∀ f, a ≠ .failure f) : a.raised = .ok a := by
  cases a with
  | failure f => exact absurd rfl (ha f)
  | _ => rfl

/-! ## A store that nothing happens to -/

/-- Nothing is made to fail, and no answer is fixed. -/
structure Server.Plain (s : Server) : Prop where
  connectFailure : s.connectFailure = none
  commandFailures : s.commandFailures = []
  honest : s.Honest

namespace Server

variable {s : Server}

theorem Plain.execute (hs : s.Plain) (c : Command) : (s.execute c).2.Plain := by
  rw [execute_eq]
  exact ⟨hs.connectFailure, hs.commandFailures, hs.honest⟩

theorem Plain.bare (hs : s.Plain) : s.bare.Plain := ⟨hs.connectFailure, hs.commandFailures, hs.honest⟩

theorem execute_login (hs : s.Honest) (username : Option String) (password : String) :
    s.execute (.auth username password) = (s.login (Command.auth username password).args, s) := by
  unfold Server.execute
  rw [Command.name_auth, hs]
  rfl

/-- What a store refuses it refuses with an error. -/
theorem Plain.refuses (hs : s.Plain) {c : Command} {f : Failure} (hf : (s.execute c).1 = .failure f) :
    (f.isErrorReply || f.isAuthentication) = true := by
  have hnone : s.fixedAnswers.lookup c.name = none := by
    rw [hs.honest]
    rfl
  unfold Server.execute at hf
  simp only [hnone] at hf
  split at hf
  case h_1 =>
    unfold login at hf
    split at hf
    · cases hf
      rfl
    · split at hf
      · cases hf
      · cases hf
        rfl
  case h_2 => split at hf <;> cases hf
  case h_6 =>
    cases hf
    rfl
  all_goals cases hf

end Server

/-- A link is open to a store that nothing happens to. -/
structure Link.Stands (link : Link) : Prop where
  isOpen : link.isOpen = true
  plain : link.server.Plain

/-- What is sent over a link that stands is executed, and its answer is the reply. -/
theorem Link.Stands.exchange_eq {link : Link} (hl : link.Stands) (c : Command) :
    ∃ said, link.exchange c = (Reply.ofExchange c.name (link.server.execute c).1.raised,
      ⟨(link.server.execute c).2, true, said⟩) := by
  have hnone : link.server.commandFailures.lookup c.name = none := by
    rw [hl.plain.commandFailures]
    rfl
  unfold Link.exchange
  rw [hl.isOpen, hnone]
  exact ⟨_, rfl⟩

theorem Link.Stands.exchange {link : Link} (hl : link.Stands) (c : Command) :
    ∃ reply link', link.exchange c = (.ok reply, link') ∧ reply.tag ≠ .null ∧ link'.Stands := by
  obtain ⟨said, hexchange⟩ := hl.exchange_eq c
  have hstands : Link.Stands ⟨(link.server.execute c).2, true, said⟩ := ⟨rfl, hl.plain.execute c⟩
  by_cases hf : ∃ f, (link.server.execute c).1 = .failure f
  · obtain ⟨f, hf⟩ := hf
    refine ⟨.error f, _, ?_, by simp [Reply.error], hstands⟩
    rw [hexchange, hf, Answer.raised, Reply.ofExchange, if_pos (hl.plain.refuses hf)]
  · refine ⟨_, _, ?_, Reply.tag_ofAnswer_ne_null c.name (link.server.execute c).1, hstands⟩
    rw [hexchange, Answer.raised_of_ne fun f heq => hf ⟨f, heq⟩]
    rfl

namespace Client

open Storage (Operation)

variable {k : Client}

/-- The store is one that nothing happens to, and a client that is ready has an open link to it. -/
structure Settled (k : Client) : Prop where
  plain : k.link.server.Plain
  isOpen : k.session.phase = .ready → k.link.isOpen = true

theorem Settled.stands (hk : k.Settled) (hready : k.session.phase = .ready) : k.link.Stands :=
  ⟨hk.isOpen hready, hk.plain⟩

theorem Settled.forget (hk : k.Settled) : (Client.mk k.session { k.link with said := [] }).Settled :=
  ⟨hk.plain, hk.isOpen⟩

/-- A login is accepted or refused. -/
theorem login_settled (hl : k.link.Stands) : k.login.2.Settled ∧
    (k.login.1 = .ok none ∧ k.login.2.session.phase = .ready ∨
      ∃ detail, k.login.1 = .ok (some detail) ∧ k.login.2.session.phase = .invalid) := by
  unfold login
  cases k.session.settings.password with
  | none => exact ⟨⟨hl.plain, fun _ => hl.isOpen⟩, .inl ⟨rfl, rfl⟩⟩
  | some password =>
    obtain ⟨reply, link', hexchange, -, hl'⟩ := hl.exchange (.auth k.session.loginName? password)
    simp only [hexchange]
    by_cases hr : Session.rejects reply = true
    · rw [if_pos hr]
      exact ⟨⟨hl'.plain, nofun⟩, .inr ⟨_, rfl, rfl⟩⟩
    · rw [if_neg hr]
      exact ⟨⟨hl'.plain, fun _ => hl'.isOpen⟩, .inl ⟨rfl, rfl⟩⟩

theorem connect_settled (hplain : k.link.server.Plain) (hphase : k.session.phase ≠ .ready) :
    k.connect.2.Settled ∧ (k.connect.1 = .ok none → k.connect.2.session.phase = .ready) := by
  unfold connect
  by_cases hscheme : k.session.endpoint.scheme = Endpoint.supportedScheme
  · rw [if_pos hscheme]
    by_cases hplace : (k.session.endpoint.isTcp || k.session.endpoint.isUnix) = true
    · rw [if_pos hplace, hplain.connectFailure]
      have hopen : Link.Stands { k.link with isOpen := true } := ⟨rfl, hplain⟩
      obtain ⟨hsettled, ⟨-, hready⟩ | ⟨detail, hdetail, -⟩⟩ := login_settled (k := { k with link := _ }) hopen
      · exact ⟨hsettled, fun _ => hready⟩
      · refine ⟨hsettled, fun hnone => ?_⟩
        cases hdetail.symm.trans hnone
    · rw [if_neg hplace]
      exact ⟨⟨hplain, nofun⟩, nofun⟩
  · rw [if_neg hscheme]
    exact ⟨⟨hplain, fun hready => absurd hready hphase⟩, nofun⟩

theorem makeReady_settled (hk : k.Settled) : k.makeReady.2.Settled ∧
    (k.makeReady.1 = .ok none → k.makeReady.2.session.phase = .ready) := by
  unfold makeReady
  cases hphase : k.session.phase with
  | ready => exact ⟨hk, fun _ => hphase⟩
  | invalid => exact ⟨hk, nofun⟩
  | unconnected | connecting => exact connect_settled hk.plain nofun

/-- A command is answered, and leaves the client ready. -/
theorem issue_settled (hl : k.link.Stands) (c : Command) :
    ∃ reply k', k.issue c = (.ok reply, k') ∧ k'.link.Stands ∧ k'.session.phase = .ready := by
  obtain ⟨reply, link', hexchange, hreply, hl'⟩ := hl.exchange c
  refine ⟨reply, { k with link := link' }.setPhase reply.phase, ?_, hl', Reply.phase_of_ne_null hreply⟩
  rw [issue, hexchange]

theorem serve_settled (hl : k.link.Stands) (hready : k.session.phase = .ready) (op : Operation) :
    (k.serve op).2.link.Stands ∧ (k.serve op).2.session.phase = .ready := by
  have hissue (c : Command) : (k.issue c).2.link.Stands ∧ (k.issue c).2.session.phase = .ready := by
    obtain ⟨reply, k', hissue, hl', hready'⟩ := issue_settled hl c
    rw [hissue]
    exact ⟨hl', hready'⟩
  match op with
  | .get d | .remove d | .put d value false => exact hissue _
  | .put d value true =>
    obtain ⟨reply, k', hasked, hl', hready'⟩ := issue_settled hl (.exists? d.key)
    obtain ⟨reply', k'', hwritten, hl'', hready''⟩ := issue_settled hl' (.set d.key value)
    simp only [serve, hasked]
    by_cases hlets : reply.letsWrite = true
    · rw [if_pos hlets, hwritten]
      exact ⟨hl'', hready''⟩
    · rw [if_neg hlets]
      exact ⟨hl', hready'⟩
  | .close => exact ⟨hl, hready⟩

/-- An operation that succeeds leaves the client ready, and one on a client that is ready leaves it so. -/
theorem perform_settled (hk : k.Settled) {op : Operation} (hop : op ≠ .close) : (k.perform op).2.Settled ∧
    (k.session.phase = .ready ∨ (∃ value, (k.perform op).1 = .ok (.success value)) →
      (k.perform op).2.session.phase = .ready) := by
  obtain ⟨hsettled, hnone⟩ := makeReady_settled hk
  have hready (h : k.session.phase = .ready) : k.makeReady.1 = .ok none := by rw [makeReady_of_ready h]
  rw [perform_eq k hop]
  generalize k.makeReady = made at hsettled hnone hready
  obtain ⟨r, k'⟩ := made
  match r with
  | .error f | .ok (some detail) =>
    refine ⟨hsettled, ?_⟩
    rintro (h | ⟨value, hvalue⟩)
    · cases hready h
    · cases hvalue
  | .ok none =>
    obtain ⟨hl, hserved⟩ := serve_settled (hsettled.stands (hnone rfl)) (hnone rfl) op
    exact ⟨⟨hl.plain, fun _ => hl.isOpen⟩, fun _ => hserved⟩

theorem settled_perform (hk : k.Settled) (op : Operation) : (k.perform op).2.Settled := by
  by_cases hop : op = .close
  · subst hop
    exact ⟨hk.plain, nofun⟩
  · exact (perform_settled hk hop).1

/-- What a client that is ready reads is what the store holds. -/
theorem perform_get (hk : k.Settled) (hready : k.session.phase = .ready) (d : Digest) :
    (k.perform (.get d)).1 = .ok (.success (k.link.server.contents d.key)) := by
  have hl := hk.stands hready
  obtain ⟨said, hexchange⟩ := hl.exchange_eq (.get d.key)
  have hstatus : "GET" ∉ Reply.statusCommands := by simp [Reply.statusCommands]
  rw [perform_eq k (by simp), makeReady_of_ready hready]
  simp only [serve, issue, hexchange, Server.execute_get hl.plain.honest, Command.name_get]
  cases k.link.server.contents d.key with
  | none => rfl
  | some value => simp [Answer.raised, Reply.ofExchange, Reply.ofAnswer, hstatus, Except.map, Reply.asValue]

end Client

/-! ## Sockets that answer as a store does -/

open Resp (Cut Frames)

/-- What arrives in return to some commands, sent one after the other, are the answers of a store: each in its frame,
and this cut anyhow. -/
inductive Answering : Server → List Wire.Delivery → List Command → Prop
  | done {s : Server} {deliveries : List Wire.Delivery} : Answering s deliveries []
  | next {s : Server} {c : Command} {rest : List Command} {d : Wire.Delivery} {deliveries : List Wire.Delivery}
      {frame : Bytes} : d.failure = none → Frames c (s.execute c).1 frame → Cut d.chunks frame →
      Answering (s.execute c).2 deliveries rest → Answering s (d :: deliveries) (c :: rest)

theorem Answering.bare {s : Server} {deliveries : List Wire.Delivery} {commands : List Command}
    (h : Answering s deliveries commands) : Answering s.bare deliveries commands := by
  induction h with
  | done => exact .done
  | @next s c _ _ _ _ hd hframe hcut _ ih =>
    have hexecute := s.execute_bare c
    refine .next hd ?_ hcut ?_
    · rw [hexecute]
      exact hframe
    · rw [hexecute]
      exact ih

namespace Wire

variable {w v : Wire} {h : Handle} {c : Command} {socket : Socket} {d : Delivery} {deliveries : List Delivery}

theorem connect_accepted {script : List Opening} (hscript : w.script = .accepted deliveries :: script)
    (hnone : w.sockets.lookup h = none) :
    ∃ v number, w.connect h = (.ok (), v) ∧ v.sockets.lookup h = some { number, deliveries } := by
  unfold connect
  rw [hnone, hscript]
  refine ⟨_, w.openings + 1, rfl, ?_⟩
  simp [note, Entries.lookup_put]

theorem send_answered (hsocket : w.sockets.lookup h = some socket) (hdeliveries : socket.deliveries = d :: deliveries)
    (hd : d.failure = none) (c : Command) : ∃ v, w.send h c = (.ok (), v) ∧ v.sockets.lookup h =
      some { socket with deliveries, stream := { socket.stream with queue := socket.stream.queue ++ d.chunks } } := by
  have hconnect : w.connect h = (.ok (), w) := by
    unfold connect
    rw [hsocket]
    rfl
  unfold send
  simp only [hconnect, hsocket]
  unfold sendOver
  simp only [hdeliveries, List.head?_cons, Option.getD_some, hd]
  refine ⟨_, rfl, ?_⟩
  simp [carry, note, Entries.lookup_put]

theorem receive_answer {a : Answer} {stream : Resp.Stream} (hsocket : w.sockets.lookup h = some socket)
    (hread : Resp.readAnswer socket.stream = .ok a stream) :
    ∃ v, w.receive h = (a.raised, v) ∧ v.sockets.lookup h = some { socket with stream } := by
  unfold receive
  simp only [hsocket, Option.getD_some, hread]
  refine ⟨_, rfl, ?_⟩
  simp [carry, Entries.lookup_put]

theorem receive_refused {text : String} {stream : Resp.Stream} (hsocket : w.sockets.lookup h = some socket)
    (hread : Resp.readAnswer socket.stream = .error (.store .authentication text) stream) :
    (w.receive h).1 = .error (.store .authentication text) := by
  unfold receive
  simp only [hsocket, Option.getD_some, hread]
  rfl

/-- Where a frame has arrived, its answer is received and nothing is left, but for the error of a refused login. -/
theorem receive_framed {a : Answer} {frame : Bytes} (hsocket : w.sockets.lookup h = some socket)
    (hframe : Frames c a frame) (hholds : socket.stream.Holds frame) :
    (∃ v, w.receive h = (a.raised, v) ∧ v.sockets.lookup h = some { socket with stream := {} }) ∨
      c.isAuth = true ∧ (∃ f, a = .failure f) ∧ ∃ text, (w.receive h).1 = .error (.store .authentication text) := by
  by_cases ha : ∃ f, a = .failure f
  · obtain ⟨f, rfl⟩ := ha
    obtain ⟨text, t, hread⟩ := Resp.readAnswer_refused hframe hholds
    exact .inr ⟨hframe.isAuth, ⟨f, rfl⟩, text, receive_refused hsocket hread⟩
  · rw [← List.append_nil frame] at hholds
    obtain ⟨t, hread, hempty⟩ := Resp.readAnswer_reads hframe (fun f hf => ha ⟨f, hf⟩) _ _ hholds
    obtain rfl : t = {} := hempty.eq_of_nil
    exact .inl (receive_answer hsocket hread)

/-- A socket is open where the link is, to a store that nothing happens to. Nothing is left to be read, and what is
going to be sent will be answered. -/
structure On (h : Handle) (l : Line Wire) (link : Link) (rest : List Command) : Prop where
  stands : link.Stands
  socket : ∃ socket, l.peer.sockets.lookup h = some socket ∧ socket.stream = {} ∧
    Answering link.server socket.deliveries rest

/-- **An exchange over a socket goes as over the link**, but for the error of a refused login. -/
theorem keeps_on : Keeps On True := by
  intro h c l m link rest calls r hon hex hcalls
  obtain ⟨hl, socket, hsocket, hstream, hanswering⟩ := hon
  generalize hdeliveries : socket.deliveries = all at hanswering
  cases hanswering with
  | @next _ _ _ d deliveries frame hd hframe hcut hrest =>
    obtain ⟨v, hsend, hv⟩ := send_answered hsocket hdeliveries hd c
    obtain ⟨said, hexchange⟩ := hl.exchange_eq c
    have hstands : Link.Stands ⟨(link.server.execute c).2, true, said⟩ := ⟨rfl, hl.plain.execute c⟩
    cases hex with
    | unsent f =>
      have hunsent : l.peer.send h c = (.error f, m.peer) := hcalls.single.send_eq
      cases hsend.symm.trans hunsent
    | answered r =>
      obtain ⟨k, hk, hreceive⟩ := hcalls.last
      have hsent : l.peer.send h c = (.ok (), k.peer) := hk.single.send_eq
      have hreceived : k.peer.receive h = (r, m.peer) := hreceive.receive_eq
      obtain rfl : v = k.peer := (Prod.mk.inj (hsend.symm.trans hsent)).2
      have hholds : Resp.Stream.Holds { socket.stream with queue := socket.stream.queue ++ d.chunks } frame := by
        rw [hstream]
        exact ⟨frame, hcut, rfl⟩
      rcases receive_framed hv hframe hholds with ⟨u, hanswer, hu⟩ | ⟨hc, ⟨f, hf⟩, text, hrefused⟩
      · obtain ⟨rfl, rfl⟩ := Prod.mk.inj (hanswer.symm.trans hreceived)
        exact .inl ⟨_, hexchange, hstands, _, hu, rfl, hrest⟩
      · rw [hreceived] at hrefused
        obtain rfl : r = _ := hrefused
        have hrejected : Reply.ofExchange c.name (Answer.failure f).raised = .ok (.error f) := by
          rw [Answer.raised, Reply.ofExchange, if_pos (hl.plain.refuses hf)]
        rw [hf, hrejected] at hexchange
        exact .inr ⟨trivial, hc, _, _, _, rfl, hexchange⟩

/-- A session and its line are those of a client: no socket has been opened yet, or one is open, or the session is
invalid. What is going to be sent will be answered. -/
inductive Attends (s : Session) (l : Line Wire) (link : Link) (rest : List Command) : Prop
  | waiting {deliveries : List Delivery} {script : List Opening} : s.phase ≠ .ready → s.phase ≠ .invalid →
      s.handle = none → l.peer.script = .accepted deliveries :: script → l.peer.sockets = [] → link.server.Plain →
      Answering link.server deliveries rest → Attends s l link rest
  | standing {h : Handle} : s.phase = .ready → s.handle = some h → On h l link rest → Attends s l link rest
  | final : s.phase = .invalid → link.server.Plain → Attends s l link rest

theorem Attends.forget {s : Session} {l : Line Wire} {link : Link} {rest : List Command}
    (hx : Attends s l link rest) : Attends s l { link with said := [] } rest := by
  cases hx with
  | waiting hready hinvalid hh hscript hsockets hplain hanswering =>
    exact .waiting hready hinvalid hh hscript hsockets hplain hanswering
  | standing hready hh hon => exact .standing hready hh ⟨⟨hon.stands.isOpen, hon.stands.plain⟩, hon.socket⟩
  | final hinvalid hplain => exact .final hinvalid hplain

theorem Attends.settled {s : Session} {l : Line Wire} {link : Link} {rest : List Command} (hx : Attends s l link rest) :
    (Client.mk s.bare link).Settled := by
  cases hx with
  | waiting hready _ _ _ _ hplain => exact ⟨hplain, fun h => absurd h hready⟩
  | standing _ _ hon => exact ⟨hon.stands.plain, fun _ => hon.stands.isOpen⟩
  | final hinvalid hplain =>
    refine ⟨hplain, fun h => ?_⟩
    cases hinvalid.symm.trans h

end Wire

namespace Session

open Wire

variable {s t : Session} {n : Handle} {calls : List Call} {r : Answered} {l m : Line Wire} {link : Link}
  {rest : List Command}

theorem Opening.attends {deliveries : List Delivery} {script : List Wire.Opening} (ho : Opening s n calls r t)
    (hcalls : Leads l calls m) (hphase : s.phase = .connecting) (hh : s.handle = none)
    (hscript : l.peer.script = .accepted deliveries :: script) (hsockets : l.peer.sockets = [])
    (hplain : link.server.Plain) (hanswering : Answering link.server deliveries (asks calls ++ rest)) :
    ∃ link', (Client.mk s.bare link).connect = (r, ⟨t.bare, link'⟩) ∧ Attends t m link' rest := by
  have hconnected {k k' : Line Wire} {r : Except Failure Unit} {options : ConnectionOptions}
      (hcreate : Step l (.create n options) k) (hconnect : Step k (.connect n r) k') :
      r = .ok () ∧ ∃ number, k'.peer.sockets.lookup n = some { number, deliveries } := by
    have hscript' : k.peer.script = .accepted deliveries :: script := by
      cases hcreate
      exact hscript
    have hsockets' : k.peer.sockets = [] := by
      cases hcreate
      exact hsockets
    obtain ⟨v, number, hv, hsocket⟩ := connect_accepted (h := n) hscript' (by rw [hsockets']; rfl)
    have hconnect' : k.peer.connect n = (r, k'.peer) := hconnect.connect_eq
    obtain ⟨rfl, rfl⟩ := Prod.mk.inj (hv.symm.trans hconnect')
    exact ⟨rfl, number, hsocket⟩
  cases ho with
  | unsupported hscheme =>
    obtain rfl := hcalls.eq_of_nil
    exact ⟨link, Client.connect_of_unsupported hscheme link,
      .waiting (by simp [hphase]) (by simp [hphase]) hh hscript hsockets hplain hanswering⟩
  | nowhere htcp hunix hscheme => exact ⟨link, Client.connect_of_nowhere hscheme htcp hunix link, .final rfl hplain⟩
  | opened hplace hl =>
    obtain ⟨k, hk, hlogin⟩ := hcalls.split
    obtain ⟨k', hcreate, hconnect⟩ := hk.last
    obtain ⟨-, number, hsocket⟩ := hconnected hcreate.single hconnect
    have hopen : Link.Stands { link with isOpen := true } := ⟨rfl, hplain⟩
    have hasks : asks [.connect n (.ok ()), .create n (.of s.endpoint s.settings)] = [] := rfl
    rw [asks_append, hasks, List.nil_append] at hanswering
    obtain ⟨link', hclient, hend⟩ := hl.keeps_up keeps_on hlogin rfl ⟨hopen, _, hsocket, rfl, hanswering⟩
    obtain ⟨hsettled, hphases⟩ := Client.login_settled (k := ⟨Session.bare _, _⟩) hopen
    rw [hclient] at hsettled hphases
    rw [Client.connect_eq hplace, hplain.connectFailure]
    refine ⟨link', hclient, ?_⟩
    rcases hend with ⟨hon, ht⟩ | ⟨hinvalid, -⟩
    · rcases hphases with ⟨-, hready⟩ | ⟨-, -, hinvalid⟩
      · exact .standing hready ht hon
      · exact .final hinvalid hsettled.plain
    · exact .final hinvalid hsettled.plain
  | refused =>
    obtain ⟨k, hk, -⟩ := hcalls.last
    obtain ⟨k', hcreate, hconnect⟩ := hk.last
    obtain ⟨hok, -⟩ := hconnected hcreate.single hconnect
    cases hok
  | interrupted =>
    obtain ⟨k', hcreate, hconnect⟩ := hcalls.last
    obtain ⟨hok, -⟩ := hconnected hcreate.single hconnect
    cases hok

theorem Readying.attends (hr : Readying s n calls r t) (hcalls : Leads l calls m)
    (hx : Attends s l link (asks calls ++ rest)) :
    ∃ link', (Client.mk s.bare link).makeReady = (r, ⟨t.bare, link'⟩) ∧ Attends t m link' rest := by
  -- A session that is neither ready nor invalid has never held a handle.
  have hnone (hready : s.phase ≠ .ready) (hinvalid : s.phase ≠ .invalid) : s.handle = none := by
    cases hx with
    | waiting _ _ hh => exact hh
    | standing h => exact absurd h hready
    | final h => exact absurd h hinvalid
  cases hr with
  | ready hready =>
    obtain rfl := hcalls.eq_of_nil
    exact ⟨link, Client.makeReady_of_ready hready, hx⟩
  | invalid hinvalid =>
    obtain rfl := hcalls.eq_of_nil
    exact ⟨link, Client.makeReady_of_invalid hinvalid, hx⟩
  | fresh hready hinvalid hh ho =>
    rw [Client.makeReady_eq hready hinvalid]
    cases hx with
    | waiting _ _ _ hscript hsockets hplain hanswering =>
      exact ho.attends hcalls rfl hh hscript hsockets hplain hanswering
    | standing h => exact absurd h hready
    | final h => exact absurd h hinvalid
  | reopened hready hinvalid hh | replaced hready hinvalid hh | interrupted hready hinvalid hh =>
    cases (hnone hready hinvalid).symm.trans hh

end Session

namespace Storage

open Wire

variable {s t : Session} {n : Handle} {op : Operation} {calls : List Call} {l m : Line Wire} {link : Link}
  {rest : List Command}

/-- **An operation over sockets goes as that of the client.** -/
theorem Operating.attends {r : op.Result} (ho : Operating s n op calls r t) (hcalls : Leads l calls m) (hs : s.Sound)
    (hx : Attends s l link (asks calls ++ rest)) :
    ∃ link', (Client.mk s.bare link).perform op = (r, ⟨t.bare, link'⟩) ∧ Attends t m link' rest := by
  cases ho with
  | closed hc =>
    cases hc with
    | idle | held => exact ⟨link, rfl, .final rfl hx.settled.plain⟩
  | interrupted hop hr =>
    obtain ⟨link', hready, hattends⟩ := hr.attends hcalls hx
    refine ⟨link', ?_, hattends⟩
    rw [Client.perform_eq _ hop, hready]
  | unready hop hr =>
    obtain ⟨link', hready, hattends⟩ := hr.attends hcalls hx
    refine ⟨link', ?_, hattends⟩
    rw [Client.perform_eq _ hop, hready]
  | served hr hserve =>
    obtain ⟨k, hk, hmore⟩ := hcalls.split
    rw [asks_append, List.append_assoc] at hx
    obtain ⟨link', hready, hattends⟩ := hr.attends hk hx
    obtain ⟨hphase, -⟩ := hr.ready_of_none hs
    cases hattends with
    | waiting hnot => exact absurd hphase hnot
    | final hinvalid => cases hphase.symm.trans hinvalid
    | standing _ hh hon =>
      obtain ⟨link'', hserved, hon', ht⟩ := hserve.keeps_up keeps_on hmore hphase hh hon
      obtain ⟨-, hphase'⟩ := Client.serve_settled (k := ⟨Session.bare _, _⟩) hon.stands hphase op
      rw [hserved] at hphase'
      refine ⟨link'', ?_, .standing hphase' ht hon'⟩
      rw [Client.perform_eq _ hserve.ne_close, hready]
      exact hserved

/-! ## Operations one after the other -/

section

variable {σ : Type} [Peer σ]

/-- The scene behind some operations. -/
def after (ops : List Operation) (x : Scene σ) : Scene σ := ops.foldl (fun x op => (op.perform x).2) x

/-- What comes of some operations, each with the phase that it leaves. -/
def outcomes : List Operation → Scene σ → List (Attempt × Session.Phase)
  | [], _ => []
  | op :: ops, x => (⟨op, (op.perform x).1⟩, (op.perform x).2.session.phase) :: outcomes ops (op.perform x).2

/-- The commands that operations send come behind those that were sent before. -/
theorem asks_after (ops : List Operation) (x : Scene σ) :
    ∃ commands, asks (after ops x).line.calls = asks x.line.calls ++ commands := by
  induction ops generalizing x with
  | nil => exact ⟨[], (List.append_nil _).symm⟩
  | cons op ops ih =>
    obtain ⟨calls, -, hcalls⟩ := op.course x
    obtain ⟨commands, hcommands⟩ := ih (op.perform x).2
    refine ⟨asks calls ++ commands, ?_⟩
    rw [← List.append_assoc, ← asks_append, ← hcalls.calls_eq]
    exact hcommands

end

/-- A scene with sockets is that of a client, whatever has been said. -/
structure Wired (x : Scene Wire) (k : Client) (rest : List Command) : Prop where
  sound : x.session.Sound
  session_eq : k.session = x.session.bare
  attends : Attends x.session x.line { k.link with said := [] } rest

theorem Wired.perform {x : Scene Wire} {k : Client} {commands : List Command} (op : Operation)
    (hx : Wired x k commands)
    (hcommands : asks x.line.calls ++ commands = asks (op.perform x).2.line.calls ++ rest) :
    let k' := (Client.mk k.session { k.link with said := [] }).perform op
    (op.perform x).1 = k'.1 ∧ (op.perform x).2.session.phase = k'.2.session.phase ∧
      Wired (op.perform x).2 k'.2 rest := by
  intro k'
  obtain ⟨calls, hcourse, hcalls⟩ := op.course x
  rw [hcalls.calls_eq, asks_append, List.append_assoc, List.append_cancel_left_eq] at hcommands
  obtain ⟨link', hperform, hattends⟩ := hcourse.attends hcalls hx.sound (hcommands ▸ hx.attends)
  have hk' : k' = _ := (congrArg (fun s => (Client.mk s _).perform op) hx.session_eq).trans hperform
  rw [hk']
  exact ⟨rfl, rfl, hcourse.sound hx.sound, rfl, hattends.forget⟩

/-- **Operations over sockets and on a store in memory go alike** if they are those of one client. -/
theorem Wired.outcomes_eq {x : Scene Wire} {y : Scene Server} {k : Client} {ops : List Operation}
    {commands : List Command} (hx : Wired x k commands) (hy : Tracks y k)
    (hcommands : asks (after ops x).line.calls = asks x.line.calls ++ commands) :
    outcomes ops x = outcomes ops y := by
  induction ops generalizing x y k commands with
  | nil => rfl
  | cons op ops ih =>
    obtain ⟨rest, hrest⟩ := asks_after ops (op.perform x).2
    obtain ⟨hresult, hphase, hwired⟩ := hx.perform op (hcommands.symm.trans hrest)
    obtain ⟨hresult', hphase', -, -, htracks⟩ := hy.perform op
    simp only [outcomes]
    rw [hresult, hresult', hphase, hphase', ih hwired htracks hrest]

/-! ## What is read after a write -/

theorem Tracks.server_eq {y : Scene Server} {k : Client} (hy : Tracks y k) : k.link.server = y.line.peer.bare :=
  hy.mirrors.behind.server_eq

theorem Tracks.honest {y : Scene Server} {k : Client} (hy : Tracks y k) (hk : k.Settled) : y.line.peer.Honest := by
  have hhonest := hk.plain.honest
  rw [hy.server_eq] at hhonest
  exact hhonest

/-- Some operations on, the scene is still that of a client with a store that nothing happens to. -/
theorem Tracks.after {y : Scene Server} {k : Client} (hy : Tracks y k) (hk : k.Settled) (ops : List Operation) :
    ∃ k', Tracks (after ops y) k' ∧ k'.Settled := by
  induction ops generalizing y k with
  | nil => exact ⟨k, hy, hk⟩
  | cons op ops ih =>
    obtain ⟨-, -, -, -, htracks⟩ := hy.perform op
    exact ih htracks (Client.settled_perform hk.forget op)

/-- A store in memory that nothing happens to, with a session that is ready, holds a value for a digest. -/
def Offers (y : Scene Server) (d : Digest) (value : Bytes) : Prop :=
  ∃ k, Tracks y k ∧ k.Settled ∧ k.session.phase = .ready ∧ contents y d.key = some value

/-- Only a success or a session that was ready before leaves a session that is ready. -/
theorem Tracks.settled {y : Scene Server} {k : Client} (hy : Tracks y k) (hk : k.Settled) {op : Operation}
    (hop : op ≠ .close)
    (hready : k.session.phase = .ready ∨ ∃ value, (op.perform y).1 = .ok (.success value)) :
    ∃ k', Tracks (op.perform y).2 k' ∧ k'.Settled ∧ k'.session.phase = .ready := by
  obtain ⟨hresult, -, -, -, htracks⟩ := hy.perform op
  obtain ⟨hsettled, hphase⟩ := Client.perform_settled hk.forget hop
  rw [hresult] at hready
  exact ⟨_, htracks, hsettled, hphase hready⟩

theorem Tracks.offers {y : Scene Server} {k : Client} (hy : Tracks y k) (hk : k.Settled) {d : Digest}
    {value : Bytes} {onlyIfMissing : Bool}
    (hput : ((Operation.put d value onlyIfMissing).perform y).1 = .ok (.success true)) :
    Offers ((Operation.put d value onlyIfMissing).perform y).2 d value := by
  have hop : Operation.put d value onlyIfMissing ≠ .close := by simp
  obtain ⟨k', htracks, hsettled, hready⟩ := hy.settled hk hop (.inr ⟨true, hput⟩)
  have hstep := (Operation.put d value onlyIfMissing).step (hy.honest hk)
  rw [hput] at hstep
  refine ⟨k', htracks, hsettled, hready, ?_⟩
  rw [hstep.2]
  simp [Contents.set]

/-- An operation neither closes the store nor changes the value of a digest. -/
def Operation.Spares (d : Digest) : Operation → Prop
  | .get _ => True
  | .put e .. | .remove e => e ≠ d
  | .close => False

theorem Operation.Spares.contents_eq {y : Scene Server} {d : Digest} {op : Operation} (hop : op.Spares d)
    (hy : y.line.peer.Honest) : contents (op.perform y).2 d.key = contents y d.key := by
  have hstep := op.step hy
  match op with
  | .get e =>
    generalize ((Operation.get e).perform y).1 = r at hstep
    match r with
    | .ok (.success value) => rw [hstep.2]
    | .ok (.failure detail) | .error f => rw [hstep]
  | .put e value onlyIfMissing | .remove e =>
    refine hstep.frame ?_
    rintro _ ⟨⟩
    rw [Ne, Digest.key_inj]
    exact Ne.symm hop

theorem Offers.perform {y : Scene Server} {d : Digest} {value : Bytes} {op : Operation} (hy : Offers y d value)
    (hop : op.Spares d) : Offers (op.perform y).2 d value := by
  obtain ⟨k, htracks, hsettled, hready, hvalue⟩ := hy
  have hclose : op ≠ .close := by
    intro hclose
    subst hclose
    exact hop
  obtain ⟨k', htracks', hsettled', hready'⟩ := htracks.settled hsettled hclose (.inl hready)
  exact ⟨k', htracks', hsettled', hready', (hop.contents_eq (htracks.honest hsettled)).trans hvalue⟩

theorem Offers.after {y : Scene Server} {d : Digest} {value : Bytes} {ops : List Operation} (hy : Offers y d value)
    (hops : ∀ op ∈ ops, op.Spares d) : Offers (after ops y) d value := by
  induction ops generalizing y with
  | nil => exact hy
  | cons op ops ih =>
    have hperform := hy.perform (hops op List.mem_cons_self)
    exact ih hperform fun op hop => hops op (List.mem_cons_of_mem _ hop)

theorem Offers.get {y : Scene Server} {d : Digest} {value : Bytes} (hy : Offers y d value) :
    ((Operation.get d).perform y).1 = .ok (.success (some value)) := by
  obtain ⟨k, htracks, hsettled, hready, hvalue⟩ := hy
  obtain ⟨hresult, -⟩ := htracks.perform (.get d)
  have hcontents : k.link.server.contents = contents y := by
    rw [htracks.server_eq]
    rfl
  rw [hresult, Client.perform_get hsettled.forget hready, ← hvalue, ← hcontents]

/-! ## Runs -/

theorem after_append {σ : Type} [Peer σ] (before ops : List Operation) (x : Scene σ) :
    after (before ++ ops) x = after ops (after before x) :=
  List.foldl_append

/-- Where the same comes of some operations, the same comes of each. -/
theorem result_eq {σ τ : Type} [Peer σ] [Peer τ] {x : Scene σ} {y : Scene τ} {before rest : List Operation}
    {op : Operation} (h : outcomes (before ++ op :: rest) x = outcomes (before ++ op :: rest) y) :
    (op.perform (after before x)).1 = (op.perform (after before y)).1 := by
  induction before generalizing x y with
  | nil =>
    have hattempt : Attempt.mk op (op.perform x).1 = ⟨op, (op.perform y).1⟩ := congrArg Prod.fst (List.cons.inj h).1
    have hresult : (op.perform x).1 = (op.perform y).1 := by simpa using hattempt
    exact hresult
  | cons _ before ih => exact ih (List.cons.inj h).2

/-- A client that is followed over sockets and on a store in memory, from the start of both. -/
theorem followed (endpoint : Endpoint) (settings : BackendSettings) {server : Server}
    {deliveries : List Delivery} {script : List Opening} (logging : Logging.State) {commands : List Command}
    (hserver : server.Plain) (hanswering : Answering server deliveries commands) :
    ∃ k : Client, k.Settled ∧ Tracks (Scene.fresh endpoint settings server logging) k ∧
      Wired (Scene.fresh endpoint settings { script := .accepted deliveries :: script } logging) k commands := by
  refine ⟨⟨{ endpoint, settings }, { server := server.bare }⟩, ⟨hserver.bare, by simp⟩,
    tracks_fresh endpoint settings server logging, Scene.sound_fresh .., rfl, ?_⟩
  exact .waiting (by simp [Scene.fresh]) (by simp [Scene.fresh]) rfl rfl rfl hserver.bare hanswering.bare

/-- **Over sockets that answer as a store does, everything goes as on a store in memory** that nothing happens to: the
same comes of every operation, and it leaves the same phase. In particular, what has been written is read. -/
theorem same_over_sockets {endpoint : Endpoint} {settings : BackendSettings} {server : Server}
    {deliveries : List Delivery} {script : List Opening} {logging : Logging.State} {ops : List Operation}
    (hserver : server.Plain) :
    let x := Scene.fresh endpoint settings ({ script := .accepted deliveries :: script } : Wire) logging
    let y := Scene.fresh endpoint settings server logging
    Answering server deliveries (asks (after ops x).line.calls) →
      outcomes ops x = outcomes ops y ∧
      ∀ (before between rest : List Operation) (d : Digest) (value : Bytes) (onlyIfMissing : Bool),
        ops = before ++ .put d value onlyIfMissing :: (between ++ .get d :: rest) → (∀ op ∈ between, op.Spares d) →
        ((Operation.put d value onlyIfMissing).perform (after before x)).1 = .ok (.success true) →
        ((Operation.get d).perform (after (before ++ .put d value onlyIfMissing :: between) x)).1 =
          .ok (.success (some value)) := by
  intro x y hanswering
  obtain ⟨k, hk, hy, hx⟩ := followed endpoint settings logging hserver hanswering
  have hsame : outcomes ops x = outcomes ops y := hx.outcomes_eq hy rfl
  refine ⟨hsame, ?_⟩
  intro before between rest d value onlyIfMissing hops hspares hput
  have hops' : ops = (before ++ .put d value onlyIfMissing :: between) ++ .get d :: rest := by simp [hops]
  obtain ⟨k', hy', hk'⟩ := hy.after hk before
  have hput' : ((Operation.put d value onlyIfMissing).perform (after before y)).1 = .ok (.success true) := by
    rw [← result_eq (hops ▸ hsame)]
    exact hput
  have hoffers : Offers (after (before ++ .put d value onlyIfMissing :: between) y) d value := by
    rw [after_append]
    exact (hy'.offers hk' hput').after hspares
  rw [result_eq (hops' ▸ hsame)]
  exact hoffers.get

/-- A value that looks like the end of a line, written and read over a socket that delivers frames in pieces. -/
theorem same_over_sockets_in_pieces :
    let d : Digest := ⟨List.replicate 20 0, rfl⟩
    let value : Bytes := [13, 10, 0]
    let ops : List Operation := [.put d value false, .get d]
    let deliveries : List Delivery := [
      { chunks := [.bytes [43, 79], .bytes [75, 13, 10]] },
      { chunks := [.bytes [43, 79, 75, 13], .bytes [10]] },
      { chunks := [.bytes [36], .bytes [51, 13, 10, 13], .bytes [10, 0, 13, 10]] }]
    let x := Scene.onHost ({ script := [.accepted deliveries] } : Wire) (some "secret")
    outcomes ops x = outcomes ops (Scene.onHost ({ password := some "secret" } : Server) (some "secret")) ∧
      ((Operation.get d).perform (after [.put d value false] x)).1 = .ok (.success (some value)) := by
  intro d value ops deliveries x
  let server : Server := { password := some "secret" }
  let written : Server := { server with values := Entries.put server.values d.key value }
  have hserver : server.Plain := ⟨rfl, rfl, rfl⟩
  have hok : [43, 79] ++ ([75, 13, 10] ++ []) = Resp.ascii "+OK" ++ Resp.lineEnd := by decide +kernel
  have hok' : [43, 79, 75, 13] ++ ([10] ++ []) = Resp.ascii "+OK" ++ Resp.lineEnd := by decide +kernel
  have hvalue : [36] ++ ([51, 13, 10, 13] ++ ([10, 0, 13, 10] ++ [])) = Resp.bulk value := by decide +kernel
  have hauth : Cut [.bytes [43, 79], .bytes [75, 13, 10]] (Resp.ascii "+OK" ++ Resp.lineEnd) :=
    hok ▸ .cons (by simp) (.cons (by simp) .nil)
  have hset : Cut [.bytes [43, 79, 75, 13], .bytes [10]] (Resp.ascii "+OK" ++ Resp.lineEnd) :=
    hok' ▸ .cons (by simp) (.cons (by simp) .nil)
  have hget : Cut [.bytes [36], .bytes [51, 13, 10, 13], .bytes [10, 0, 13, 10]] (Resp.bulk value) :=
    hvalue ▸ .cons (by simp) (.cons (by simp) (.cons (by simp) .nil))
  have hasked : Answering written (deliveries.drop 2) [.get d.key] := by
    have hhonest : written.Honest := hserver.honest
    have hexecute := Server.execute_get hhonest d.key
    have hheld : written.contents d.key = some value := by
      rw [Server.contents_put]
      exact if_pos rfl
    refine .next rfl ?_ hget .done
    rw [hexecute, hheld]
    exact .bulk (by simp [Reply.statusCommands]) (by decide)
  have hwritten : Answering server (deliveries.drop 1) [.set d.key value, .get d.key] := by
    have hexecute := Server.execute_set hserver.honest d.key value
    refine .next rfl ?_ hset (by rw [hexecute]; exact hasked)
    rw [hexecute]
    exact .status (by simp [Reply.statusCommands])
  have hcommands : asks (after ops x).line.calls = [.auth none "secret", .set d.key value, .get d.key] := by
    decide +kernel
  have hanswering : Answering server deliveries (asks (after ops x).line.calls) := by
    have hlogin := Server.execute_login hserver.honest none "secret"
    have haccepted : server.login (Command.auth none "secret").args = .bytes (Resp.ascii "OK") := by
      rw [Server.login, if_neg (by decide), if_pos (by decide)]
      rfl
    rw [hcommands]
    refine .next rfl ?_ hauth (by rw [hlogin]; exact hwritten)
    rw [hlogin, haccepted]
    exact .status (by simp [Reply.statusCommands])
  have hstart : x = Scene.fresh x.session.endpoint x.session.settings { script := .accepted deliveries :: [] } {} := rfl
  have hput : ((Operation.put d value false).perform x).1.toOption = some (.success true) := by decide +kernel
  rw [hstart] at hanswering
  obtain ⟨hsame, hread⟩ := same_over_sockets hserver hanswering
  rw [← hstart] at hsame hread
  exact ⟨hsame, hread [] [] [] d value false rfl (by simp) (Results.toOption_eq_some.1 hput)⟩

end Storage

end RemoteCache
