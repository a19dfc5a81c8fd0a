import RemoteCache.Server
import RemoteCache.Proofs.Storage.Agreement
import RemoteCache.Proofs.Storage.Assertions

/-!
# A client without handles

What a store does with a store in memory, told without handles: a *link* is open or not, and a command that goes over
it is executed or lost (`Link.exchange`). A *client* is a session without a handle and its link. It connects once,
whether there was a connection before or not, and its operations are those of a store (`Client.perform`).

Sessions of different histories, and lines to different peers, are compared by what they have in common with one
client. All that this takes of the peer is that its replies are those of the link (`Keeps`); then a login and the
commands of an operation end as they do for the client (`Session.Login.keeps_up`, `Storage.Serving.keeps_up`).

A rejected login tells nothing of the error that it was rejected with but that it was one, so a line may have another
error there than the link.
-/

namespace RemoteCache

open Line

/-! ## Links -/

/-- What was said over a line: a command with what came of sending it, or what came back. -/
inductive Word
  | sent (c : Command) (result : Except Failure Unit)
  | received (result : Except Failure Answer)

/-- A connection to a store in memory, and all that was said over it, the latest first. -/
structure Link where
  server : Server
  isOpen : Bool := false
  said : List Word := []

/-- What a link that is not open fails with. -/
def Link.closed : Failure := .store .connection "Connection closed by server."

/-- Sends a command over a link and receives the reply. A failure that the store has in store breaks the link. -/
def Link.exchange (l : Link) (c : Command) : Except Failure Reply × Link :=
  if l.isOpen then
    match l.server.commandFailures.lookup c.name with
    | some f => (Reply.ofExchange c.name (.error f), {
        server := { l.server with commandFailures := Entries.drop l.server.commandFailures c.name }
        isOpen := false
        said := .sent c (.error f) :: l.said })
    | none =>
      let result := (l.server.execute c).1.raised
      (Reply.ofExchange c.name result, { l with
        server := (l.server.execute c).2
        said := .received result :: .sent c (.ok ()) :: l.said })
  else (Reply.ofExchange c.name (.error closed), { l with said := .sent c (.error closed) :: l.said })

/-! ## Clients -/

/-- A session without its handle. -/
def Session.bare (s : Session) : Session := { s with handle := none }

/-- A session without a handle, and the link that it has instead. -/
structure Client where
  session : Session
  link : Link

/-- What a reply to the question for an earlier value comes to if no write goes ahead after it. -/
def Reply.asKept (r : Reply) : Outcome Bool :=
  match r.tag with
  | .integer _ => .success false
  | _ => .failure (.ofReply r)

namespace Client

open Storage (Operation)

def setPhase (k : Client) (phase : Session.Phase) : Client := { k with session := { k.session with phase } }

/-- Logs in if a password is set. -/
def login (k : Client) : Session.Answered × Client :=
  match k.session.settings.password with
  | none => (.ok none, k.setPhase .ready)
  | some password =>
    match k.link.exchange (.auth k.session.loginName? password) with
    | (.error f, link) => (.error f, { k with link })
    | (.ok reply, link) =>
      if Session.rejects reply then
        (.ok (some (Session.authRejected (k.session.loginName?.getD Session.defaultUsername) reply)),
          { k with link }.setPhase .invalid)
      else (.ok none, { k with link }.setPhase .ready)

/-- Opens the link and logs in. -/
def connect (k : Client) : Session.Answered × Client :=
  if k.session.endpoint.scheme = Endpoint.supportedScheme then
    if k.session.endpoint.isTcp || k.session.endpoint.isUnix then
      match k.link.server.connectFailure with
      | none => { k with link := { k.link with isOpen := true } }.login
      | some f =>
        if f.isConnectFailure then (.ok (some (.ofConnectFailure f)), k.setPhase .invalid) else (.error f, k)
    else (.ok (some (Session.invalidEndpoint k.session.endpoint.url)), k.setPhase .invalid)
  else (.error (.assertion [.text k.session.endpoint.scheme]), k)

def makeReady (k : Client) : Session.Answered × Client :=
  match k.session.phase with
  | .ready => (.ok none, k)
  | .invalid => (.ok (some Session.backendInvalid), k)
  | .unconnected | .connecting => (k.setPhase .connecting).connect

/-- Sends a command; without an answer the client has to connect again. -/
def issue (k : Client) (c : Command) : Except Failure Reply × Client :=
  match k.link.exchange c with
  | (.ok reply, link) => (.ok reply, { k with link }.setPhase reply.phase)
  | (.error f, link) => (.error f, { k with link })

/-- Sends the commands of an operation. -/
def serve (k : Client) : (op : Operation) → op.Result × Client
  | .get d => ((k.issue (.get d.key)).1.map Reply.asValue, (k.issue (.get d.key)).2)
  | .remove d => ((k.issue (.del d.key)).1.map Reply.asRemoved, (k.issue (.del d.key)).2)
  | .put d value false => ((k.issue (.set d.key value)).1.map Reply.asWritten, (k.issue (.set d.key value)).2)
  | .put d value true =>
    match k.issue (.exists? d.key) with
    | (.error f, k) => (.error f, k)
    | (.ok reply, k) =>
      if reply.letsWrite then
        ((k.issue (.set d.key value)).1.map Reply.asWritten, (k.issue (.set d.key value)).2)
      else (.ok reply.asKept, k)
  | .close => (.ok (.success ()), k)

def perform (k : Client) (op : Operation) : op.Result × Client :=
  match op with
  | .close => (.ok (.success ()), k.setPhase .invalid)
  | op => match k.makeReady with
    | (.error f, k) => (.error f, k)
    | (.ok (some detail), k) => (.ok (.failure detail), k)
    | (.ok none, k) => k.serve op

@[simp] theorem setPhase_bare (s : Session) (link : Link) (phase : Session.Phase) :
    (mk s.bare link).setPhase phase = ⟨{ s with phase }.bare, link⟩ := rfl

theorem perform_eq (k : Client) {op : Operation} (hop : op ≠ .close) : k.perform op =
    match k.makeReady with
    | (.error f, k) => (.error f, k)
    | (.ok (some detail), k) => (.ok (.failure detail), k)
    | (.ok none, k) => k.serve op := by
  cases op with
  | get | put | remove => rfl
  | close => exact absurd rfl hop

theorem makeReady_of_ready {k : Client} (hready : k.session.phase = .ready) : k.makeReady = (.ok none, k) := by
  unfold makeReady
  rw [hready]

theorem makeReady_of_invalid {k : Client} (hinvalid : k.session.phase = .invalid) :
    k.makeReady = (.ok (some Session.backendInvalid), k) := by
  unfold makeReady
  rw [hinvalid]

/-- A session that is neither ready nor invalid connects, whatever it was before. -/
theorem makeReady_eq {s : Session} (hready : s.phase ≠ .ready) (hinvalid : s.phase ≠ .invalid) (link : Link) :
    (mk s.bare link).makeReady = (mk { s with phase := .connecting }.bare link).connect := by
  unfold makeReady
  show (match s.phase with | .ready => _ | .invalid => _ | .unconnected | .connecting => _) = _
  cases hphase : s.phase with
  | ready => exact absurd hphase hready
  | invalid => exact absurd hphase hinvalid
  | unconnected | connecting => rfl

theorem connect_eq {s : Session} (hplace : s.endpoint.Connectable) (link : Link) :
    (mk s.bare link).connect = match link.server.connectFailure with
      | none => (mk s.bare { link with isOpen := true }).login
      | some f =>
        if f.isConnectFailure then (.ok (some (.ofConnectFailure f)), ⟨{ s with phase := .invalid }.bare, link⟩)
        else (.error f, ⟨s.bare, link⟩) := by
  unfold connect
  rw [if_pos (by exact hplace.1), if_pos (by simpa [Session.bare] using hplace.2)]
  rfl

theorem connect_of_unsupported {s : Session} (hscheme : s.endpoint.scheme ≠ Endpoint.supportedScheme) (link : Link) :
    (mk s.bare link).connect = (.error (.assertion [.text s.endpoint.scheme]), ⟨s.bare, link⟩) := by
  unfold connect
  rw [if_neg (by exact hscheme)]
  rfl

theorem connect_of_nowhere {s : Session} (hscheme : s.endpoint.scheme = Endpoint.supportedScheme)
    (htcp : s.endpoint.isTcp = false) (hunix : s.endpoint.isUnix = false) (link : Link) :
    (mk s.bare link).connect =
      (.ok (some (Session.invalidEndpoint s.endpoint.url)), ⟨{ s with phase := .invalid }.bare, link⟩) := by
  unfold connect
  rw [if_pos (by exact hscheme), if_neg (by simp [Session.bare, htcp, hunix])]
  rfl

theorem login_of_none {s : Session} (hp : s.settings.password = none) (link : Link) :
    (mk s.bare link).login = (.ok none, ⟨{ s with phase := .ready }.bare, link⟩) := by
  unfold login
  show (match s.settings.password with | none => _ | some password => _) = _
  rw [hp]
  rfl

theorem login_of_some {s : Session} {password : String} (hp : s.settings.password = some password) (link : Link) :
    (mk s.bare link).login = match link.exchange (.auth s.loginName? password) with
      | (.error f, link) => (.error f, ⟨s.bare, link⟩)
      | (.ok reply, link) =>
        if Session.rejects reply then
          (.ok (some (Session.authRejected (s.loginName?.getD Session.defaultUsername) reply)),
            ⟨{ s with phase := .invalid }.bare, link⟩)
        else (.ok none, ⟨{ s with phase := .ready }.bare, link⟩) := by
  unfold login
  show (match s.settings.password with | none => _ | some password => _) = _
  rw [hp]
  rfl

end Client

/-! ## Lines that keep up with a link -/

namespace Reply

theorem phase_of_null {reply : Reply} (h : reply.tag = .null) : reply.phase = .unconnected := by
  simp [phase, h]

theorem phase_of_ne_null {reply : Reply} (h : reply.tag ≠ .null) : reply.phase = .ready := by
  unfold phase
  split
  · contradiction
  · rfl

end Reply

namespace Line

/-- The commands sent in some calls, the first one first. -/
def asks (calls : List Call) : List Command := (calls.filterMap Call.command?).reverse

@[simp] theorem asks_nil : asks [] = [] := rfl

@[simp] theorem asks_append (more calls : List Call) : asks (more ++ calls) = asks calls ++ asks more := by
  simp [asks]

theorem Exchange.asks_eq {h : Handle} {c : Command} {calls : List Call} {r : Except Failure Reply}
    (hex : Exchange h c calls r) : asks calls = [c] := by
  cases hex with
  | unsent | answered => rfl

variable {σ : Type} [Peer σ]

/-- `On h l link rest` tells that the handle `h` of the line is at one with the link, if `rest` is what will be sent. It
keeps so with every exchange, and the reply is that of the link. If `unlike` holds, then a login may be refused with
another error than over the link, and then nothing is said about what is left. -/
def Keeps (On : Handle → Line σ → Link → List Command → Prop) (unlike : Prop) : Prop :=
  ∀ {h : Handle} {c : Command} {l m : Line σ} {link : Link} {rest : List Command} {calls : List Call}
    {r : Except Failure Reply}, On h l link (c :: rest) → Exchange h c calls r → Leads l calls m →
    (∃ link', link.exchange c = (r, link') ∧ On h m link' rest) ∨
      unlike ∧ c.isAuth = true ∧
        ∃ a b link', r = .ok ⟨.error a, none⟩ ∧ link.exchange c = (.ok ⟨.error b, none⟩, link')

end Line

variable {σ : Type} [Peer σ] {On : Handle → Line σ → Link → List Command → Prop} {unlike : Prop} {s t : Session}
  {h : Handle} {c : Command} {calls : List Call} {l m : Line σ} {link : Link} {rest : List Command}

/-- **A login ends as that of the client.** If it is rejected, then the handle is disconnected behind it. -/
theorem Session.Login.keeps_up (hkeeps : Keeps On unlike) {r : Session.Answered} (hl : Session.Login s h calls r t)
    (hcalls : Leads l calls m) (hh : s.handle = some h) (hon : On h l link (asks calls ++ rest)) :
    ∃ link', (Client.mk s.bare link).login = (r, ⟨t.bare, link'⟩) ∧
      (On h m link' rest ∧ t.handle = some h ∨
        t.phase = .invalid ∧ (unlike ∨ ∃ m', On h m' link' rest ∧ Step m' (.disconnect h) m)) := by
  cases hl with
  | needless hp =>
    obtain rfl := hcalls.eq_of_nil
    exact ⟨link, Client.login_of_none hp link, .inl ⟨hon, hh⟩⟩
  | accepted hp hex hr =>
    rw [hex.asks_eq] at hon
    rcases hkeeps hon hex hcalls with ⟨link', hlink, hon'⟩ | ⟨-, -, a, b, link', herror, -⟩
    · refine ⟨link', ?_, .inl ⟨hon', hh⟩⟩
      simp only [Client.login_of_some hp, hlink, hr]
      rfl
    · cases herror
      cases hr
  | rejected hp hex hr =>
    obtain ⟨k, hk, hdisconnect⟩ := hcalls.last
    have hasks : asks (.disconnect h :: _) = _ := hex.asks_eq
    rw [hasks] at hon
    rcases hkeeps hon hex hk with ⟨link', hlink, hon'⟩ | ⟨hunlike, -, a, b, link', herror, hlink⟩
    · refine ⟨link', ?_, .inr ⟨rfl, .inr ⟨k, hon', hdisconnect⟩⟩⟩
      simp only [Client.login_of_some hp, hlink, hr, if_true]
      rfl
    · cases herror
      refine ⟨link', ?_, .inr ⟨rfl, .inl hunlike⟩⟩
      rw [Client.login_of_some hp, hlink]
      rfl
  | interrupted hp hex =>
    rw [hex.asks_eq] at hon
    rcases hkeeps hon hex hcalls with ⟨link', hlink, hon'⟩ | ⟨-, -, a, b, link', herror, -⟩
    · refine ⟨link', ?_, .inl ⟨hon', hh⟩⟩
      rw [Client.login_of_some hp, hlink]
    · cases herror

namespace Storage

variable {op : Operation}

theorem Issuing.keeps_up (hkeeps : Keeps On unlike) {r : Except Failure Reply} (hi : Issuing s c calls r t)
    (hcalls : Leads l calls m) (hc : c.isAuth = false) (hready : s.phase = .ready) (hh : s.handle = some h)
    (hon : On h l link (asks calls ++ rest)) :
    ∃ link', (Client.mk s.bare link).issue c = (r, ⟨t.bare, link'⟩) ∧ On h m link' rest := by
  have hexchange {calls : List Call} {r : Except Failure Reply} (hex : Exchange h c calls r)
      (hcalls : Leads l calls m) (hon : On h l link (asks calls ++ rest)) :
      ∃ link', link.exchange c = (r, link') ∧ On h m link' rest := by
    rw [hex.asks_eq] at hon
    rcases hkeeps hon hex hcalls with hkept | ⟨-, hauth, -⟩
    · exact hkept
    · simp [hc] at hauth
  unfold Client.issue
  cases hi with
  | idle hidle => simp [hready, hh] at hidle
  | answered _ hk hex htag =>
    cases hh.symm.trans hk
    obtain ⟨link', hlink, hon'⟩ := hexchange hex hcalls hon
    refine ⟨link', ?_, hon'⟩
    simp only [hlink, Client.setPhase_bare, Reply.phase_of_ne_null htag]
    rw [← hready]
  | lost _ hk hex htag =>
    cases hh.symm.trans hk
    obtain ⟨link', hlink, hon'⟩ := hexchange hex hcalls hon
    refine ⟨link', ?_, hon'⟩
    simp only [hlink, Client.setPhase_bare, Reply.phase_of_null htag]
  | interrupted _ hk hex =>
    cases hh.symm.trans hk
    obtain ⟨link', hlink, hon'⟩ := hexchange hex hcalls hon
    refine ⟨link', ?_, hon'⟩
    simp only [hlink]

/-- Closing sends no commands. -/
theorem Serving.ne_close {r : op.Result} (hserve : Serving s op calls r t) : op ≠ .close := by
  intro hclose
  subst hclose
  cases hserve

/-- **The commands of an operation end as those of the client**, and leave their handle with the session. -/
theorem Serving.keeps_up (hkeeps : Keeps On unlike) {r : op.Result} (hserve : Serving s op calls r t)
    (hcalls : Leads l calls m) (hready : s.phase = .ready) (hh : s.handle = some h)
    (hon : On h l link (asks calls ++ rest)) :
    ∃ link', (Client.mk s.bare link).serve op = (r, ⟨t.bare, link'⟩) ∧ On h m link' rest ∧ t.handle = some h := by
  have hheld : t.handle = some h := by
    rcases hserve.session_eq with rfl | rfl <;> exact hh
  have hdata {c : Command} (hc : c.isData = true) : c.isAuth = false := Command.not_isAuth_of_isData hc
  unfold Client.serve
  cases hserve with
  | get hi | remove hi | put hi =>
    obtain ⟨link', hissue, hon'⟩ := hi.keeps_up hkeeps hcalls (hdata (by simp)) hready hh hon
    exact ⟨link', by simp only [hissue], hon', hheld⟩
  | unasked hi =>
    obtain ⟨link', hissue, hon'⟩ := hi.keeps_up hkeeps hcalls (hdata (by simp)) hready hh hon
    exact ⟨link', by simp only [hissue], hon', hheld⟩
  | unanswered hi hnull =>
    obtain ⟨link', hissue, hon'⟩ := hi.keeps_up hkeeps hcalls (hdata (by simp)) hready hh hon
    exact ⟨link', by simp [hissue, Reply.letsWrite, Reply.asKept, hnull], hon', hheld⟩
  | @kept _ _ _ reply _ _ hi htag hn =>
    obtain ⟨link', hissue, hon'⟩ := hi.keeps_up hkeeps hcalls (hdata (by simp)) hready hh hon
    have hlets : reply.letsWrite = false := by
      simp only [Reply.letsWrite, htag, decide_eq_false_iff_not]
      omega
    exact ⟨link', by simp [hissue, hlets, Reply.asKept, htag], hon', hheld⟩
  | written hi hlets hi' =>
    obtain ⟨k, hk, hmore⟩ := hcalls.split
    rw [asks_append, List.append_assoc] at hon
    obtain ⟨link', hissue, hon'⟩ := hi.keeps_up hkeeps hk (hdata (by simp)) hready hh hon
    have hready' := (hi.issuable (Reply.tag_ne_null_of_letsWrite hlets)).1
    rcases hi.session_eq with rfl | rfl
    · obtain ⟨link'', hissue', hon''⟩ := hi'.keeps_up hkeeps hmore (hdata (by simp)) hready hh hon'
      exact ⟨link'', by simp only [hissue, hlets, if_true, hissue'], hon'', hheld⟩
    · cases hready'

end Storage
end RemoteCache
