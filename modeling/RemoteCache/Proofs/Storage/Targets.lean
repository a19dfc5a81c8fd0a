import RemoteCache.Proofs.Bytes.Hex
import RemoteCache.Proofs.Endpoint.Hosts
import RemoteCache.Proofs.Resp.Numbers
import RemoteCache.Proofs.Storage.Assertions

/-!
# Where a URL leads

Whatever text a URL is, it is refused or it leads to one place: a host and a port, a socket, or nowhere
(`Endpoint.Coherent`). All that deals with an endpoint takes it for the same place: its description is empty only if it
is nowhere and else tells hosts and ports apart, a handle connects to its host and port exactly if there is a host, and
a session answers that it is nowhere without a handle. A store is opened only for the supported scheme
(`urls_lead_to_one_place`).

A session that is made for another scheme asserts the supported one before it looks at the place, so nowhere is an
invalid endpoint only for the supported scheme (`unsupported_nowhere_fails`).
-/

namespace RemoteCache

open Results Validation

/-! ## Schemes -/

namespace Url

/-- A letter in lower case and other characters of a scheme, or nothing. -/
def IsScheme : List Char → Prop
  | [] => True
  | c :: rest => c.isLower = true ∧ ∀ d ∈ rest, d.isLower = true ∨ d.isDigit = true ∨ d ∈ ['+', '.', '-']

variable {c : Char} {text : List Char} {u : Url}

theorem isLower_toLower (hc : c.isAlpha = true) : c.toLower.isLower = true := by
  have hcode : c.toNat < 128 := by
    have hcodes := isAlphanum_iff.1 (show c.isAlphanum = true by simp [Char.isAlphanum, hc])
    omega
  have hlower : c.isAlpha = true → c.toLower.isLower = true := of_ascii c hcode (by decide)
  exact hlower hc

theorem toLower_isSchemeChar (hc : isSchemeChar c = true) :
    c.toLower.isLower = true ∨ c.toLower.isDigit = true ∨ c.toLower ∈ ['+', '.', '-'] := by
  have hcode : c.toNat < 128 := by
    simp only [isSchemeChar, Bool.or_eq_true, decide_eq_true_eq, isAlphanum_iff] at hc
    rcases hc with ((hc | rfl) | rfl) | rfl
    · omega
    · decide
    · decide
    · decide
  have hlower : isSchemeChar c = true → c.toLower.isLower = true ∨ c.toLower.isDigit = true ∨
      c.toLower ∈ ['+', '.', '-'] := of_ascii c hcode (by decide)
  exact hlower hc

theorem isScheme_splitScheme (cs : List Char) : IsScheme (splitScheme cs).1 := by
  unfold splitScheme
  dsimp only
  split
  · next c more _ rest hname _ =>
    rw [hname]
    split
    · next hscheme =>
      simp only [Bool.and_eq_true, List.all_eq_true] at hscheme
      refine ⟨isLower_toLower hscheme.1, fun d hd => ?_⟩
      obtain ⟨e, he, rfl⟩ := List.mem_map.1 hd
      exact toLower_isSchemeChar (hscheme.2 e (List.mem_cons_of_mem c he))
    · trivial
  · trivial

theorem isScheme_parse (h : parse text = .ok u) : IsScheme u.scheme := by
  unfold parse at h
  simp only [bind, Except.bind] at h
  split at h
  · cases h
  · split at h
    · cases h
    · cases h
      exact isScheme_splitScheme _

end Url

/-! ## Endpoints -/

namespace Endpoint

variable {text : String} {e e' : Endpoint}

/-- Neither a host nor a socket. -/
def IsNowhere (e : Endpoint) : Prop := e.host = "" ∧ e.socketPath = ""

instance : Decidable e.IsNowhere := inferInstanceAs (Decidable (_ ∧ _))

/-- The endpoint of a text is at one place. -/
structure Coherent (text : String) (e : Endpoint) : Prop where
  url_eq : e.url = text
  scheme : Url.IsScheme e.scheme.toList
  port : 1 ≤ e.port ∧ e.port ≤ 65535
  noSocket : e.host ≠ "" → e.socketPath = ""
  place : e.isTcp = true ∧ e.isUnix = false ∧ ¬ e.IsNowhere ∨ e.isTcp = false ∧ e.isUnix = true ∧ ¬ e.IsNowhere ∨
    e.isTcp = false ∧ e.isUnix = false ∧ e.IsNowhere
  described : e.describe = "" ↔ e.IsNowhere

theorem readPort_bounds {v : Value} {n : Nat} (h : readPort v = .ok n) : 1 ≤ n ∧ n ≤ maxPort := by
  obtain ⟨m, -, hlow⟩ := bind_eq_ok.1 h
  obtain ⟨hpos, hhigh⟩ := guard_eq_ok.1 hlow
  obtain ⟨hmax, hn⟩ := guard_eq_ok.1 hhigh
  cases hn
  omega

/-- A number that is no larger than ports are is only refused for being nought. -/
theorem readPort_eq_error {n : Nat} (hmax : n ≤ maxPort) {fault : Fault} (h : readPort (.int n) = .error fault) :
    fault = .notPositive := by
  obtain rfl | hpos := Nat.eq_zero_or_pos n
  · cases h
    rfl
  · rw [readPort_of_le hpos hmax] at h
    cases h

theorem portOfText?_le {cs : List Char} {n : Nat} (h : portOfText? cs = some (some n)) : n ≤ maxPort := by
  unfold portOfText? at h
  split at h
  · cases h
  · split at h
    · next hport =>
      cases h
      simp only [Bool.and_eq_true, decide_eq_true_eq] at hport
      exact hport.2
    · cases h

/-- What is read from a text that is read at all. -/
theorem ofUrl_eq_ok (h : ofUrl text = .ok e) : ∃ u port, Url.parse text.toList = .ok u ∧ 1 ≤ port ∧ port ≤ maxPort ∧
    e = { url := text, scheme := String.ofList u.scheme, host := String.ofList u.host, port,
          socketPath := if u.host = [] then String.ofList (Percent.decode u.path) else "" } := by
  unfold ofUrl at h
  split at h
  · cases h
  · next u hparse =>
    split at h
    · cases h
    · dsimp only at h
      split at h
      · cases h
      · next port hport =>
        obtain ⟨hpos, hmax⟩ := readPort_bounds hport
        exact ⟨u, port, hparse, hpos, hmax, (Except.ok.inj h).symm⟩

/-- The three ways in which a text is refused. -/
theorem ofUrl_eq_error {error : Error} (h : ofUrl text = .error error) :
    (∃ u, Url.parse text.toList = .error u ∧ error = .url u) ∨ error = .port text ∨
      error = .invalid [⟨.notPositive, [.name "port"]⟩] := by
  unfold ofUrl at h
  split at h
  · next u hparse =>
    cases h
    exact .inl ⟨u, hparse, rfl⟩
  · split at h
    · cases h
      exact .inr (.inl rfl)
    · next port hport =>
      dsimp only at h
      split at h
      · next fault hfault =>
        cases h
        have hmax : port.getD defaultPort ≤ maxPort := by
          cases port with
          | none => decide
          | some n => exact portOfText?_le hport
        rw [readPort_eq_error hmax hfault]
        exact .inr (.inr rfl)
      · cases h

theorem IsNowhere.not_tcp (h : e.IsNowhere) : e.isTcp = false := by simp [isTcp, h.1]

theorem IsNowhere.not_unix (h : e.IsNowhere) : e.isUnix = false := by simp [isUnix, h.2]

theorem describe_eq_empty (e : Endpoint) : e.describe = "" ↔ e.IsNowhere := by
  by_cases hhost : e.host = ""
  · simp [describe, IsNowhere, isTcp, hhost]
  · have htcp : e.isTcp = true := by simp [isTcp, hhost]
    have hcolon : ':' ∈ e.describe.toList := by simp [describe, htcp, String.toList_append]
    refine iff_of_false ?_ fun hnowhere => hhost hnowhere.1
    intro hempty
    rw [hempty] at hcolon
    cases hcolon

/-- **Whatever a text is read as is at one place.** -/
theorem coherent (h : ofUrl text = .ok e) : Coherent text e := by
  obtain ⟨u, port, hparse, hpos, hmax, he⟩ := ofUrl_eq_ok h
  have hsocket : e.host ≠ "" → e.socketPath = "" := by
    intro hhost
    rw [he]
    refine if_neg fun hnil => hhost ?_
    rw [he, hnil]
  exact {
    url_eq := by rw [he]
    scheme := by
      rw [he, String.toList_ofList]
      exact Url.isScheme_parse hparse
    port := by
      rw [he]
      exact ⟨hpos, hmax⟩
    noSocket := hsocket
    place := by
      by_cases hhost : e.host = "" <;> by_cases hpath : e.socketPath = "" <;>
        simp [isTcp, isUnix, IsNowhere, hhost, hpath]
    described := describe_eq_empty e }

/-- The description of a host and a port tells both, whatever the host is. -/
theorem describe_inj (he : e.isTcp = true) (he' : e'.isTcp = true) (h : e.describe = e'.describe) :
    e.host = e'.host ∧ e.port = e'.port := by
  have hlist (e : Endpoint) (he : e.isTcp = true) :
      e.describe.toList = (e.host.toList ++ [':']) ++ Digits.digitsOf e.port := by
    rw [describe, if_pos he, Nat.toString_eq_ofList_toDigits]
    simp [String.toList_append, Digits.digitsOf]
  -- The digits come behind the last colon.
  have hdigits (e : Endpoint) (he : e.isTcp = true) : Url.afterLast ':' e.describe.toList = Digits.digitsOf e.port := by
    rw [hlist e he]
    refine Url.afterLast_append (by simp) fun hmem => ?_
    exact absurd (Digits.isDigit_of_mem_digitsOf hmem) (by decide)
  have hport : Digits.digitsOf e.port = Digits.digitsOf e'.port := by rw [← hdigits e he, h, hdigits e' he']
  have hhost : e.host.toList ++ [':'] = e'.host.toList ++ [':'] := by
    have hboth := hlist e he
    rw [h, hlist e' he', hport] at hboth
    exact (List.append_cancel_right hboth).symm
  refine ⟨String.toList_inj.1 (List.append_cancel_right hhost), ?_⟩
  rw [← Digits.natOf_digitsOf e.port, hport, Digits.natOf_digitsOf]

/-- A handle connects to the host and the port exactly if there is a host. -/
theorem target_eq_tcp {settings : BackendSettings} {host : String} {port : Nat} :
    (ConnectionOptions.of e settings).target = .tcp host port ↔ e.isTcp = true ∧ host = e.host ∧ port = e.port := by
  show e.target = _ ↔ _
  unfold target
  by_cases he : e.isTcp = true
  · simp [he, eq_comm]
  · simp [he]

end Endpoint

/-! ## Stores -/

namespace Storage

variable {text : String} {attributes : Attributes}

/-- Which stores are opened. -/
theorem build_eq_ok {s : Session} : build text attributes = .ok s ↔ ∃ e settings, Endpoint.ofUrl text = .ok e ∧
    e.scheme = Endpoint.supportedScheme ∧ BackendSettings.ofAttributes attributes = .valid settings ∧
      s = { endpoint := e, settings } := by
  constructor
  · intro h
    obtain ⟨hs, hscheme⟩ := of_build h
    unfold build at h
    split at h
    · cases h
    · dsimp only at h
      split at h
      · unfold ofUrl at h
        split at h
        · cases h
        · next e he =>
          split at h
          · cases h
          · next settings hsettings =>
            cases h
            exact ⟨e, settings, he, hscheme, hsettings, rfl⟩
      · cases h
  · rintro ⟨e, settings, he, hscheme, hsettings, rfl⟩
    obtain ⟨u, hparse, hu⟩ := Endpoint.scheme_ofUrl he
    rw [build, hparse]
    dsimp only
    rw [if_pos (hu.symm.trans hscheme), ofUrl, he]
    dsimp only
    rw [hsettings]

/-- Another scheme is what is wrong, whatever else is. -/
theorem build_of_unsupported {u : Url} (hparse : Url.parse text.toList = .ok u)
    (hscheme : String.ofList u.scheme ≠ Endpoint.supportedScheme) (attributes : Attributes) :
    build text attributes = .error (.scheme (String.ofList u.scheme)) := by
  rw [build, hparse]
  exact if_neg hscheme

end Storage

/-! ## First operations -/

namespace Session

variable {s t : Session} {n : Handle} {calls : List Call} {r : Answered}

/-- A session that has not been used yet opens a handle. -/
theorem Readying.opening (hr : Readying s n calls r t) (hphase : s.phase = .unconnected) (hh : s.handle = none) :
    Opening { s with phase := .connecting } n calls r t := by
  cases hr with
  | ready hready | invalid hready => simp [hphase] at hready
  | fresh _ _ _ ho => exact ho
  | reopened _ _ hsome | replaced _ _ hsome | interrupted _ _ hsome => simp [hh] at hsome

theorem Opening.of_unsupported (ho : Opening s n calls r t) (hscheme : s.endpoint.scheme ≠ Endpoint.supportedScheme) :
    calls = [] ∧ r = .error (.assertion [.text s.endpoint.scheme]) ∧ t = s := by
  cases ho with
  | unsupported => exact ⟨rfl, rfl, rfl⟩
  | nowhere _ _ heq => exact absurd heq hscheme
  | opened hplace | refused _ hplace | interrupted _ hplace => exact absurd hplace.1 hscheme

theorem Opening.of_nowhere (ho : Opening s n calls r t) (hscheme : s.endpoint.scheme = Endpoint.supportedScheme)
    (hnowhere : s.endpoint.IsNowhere) :
    calls = [] ∧ r = .ok (some (invalidEndpoint s.endpoint.url)) ∧ t = { s with phase := .invalid } := by
  have hplace : ¬ s.endpoint.Connectable := by simp [Endpoint.Connectable, hnowhere.not_tcp, hnowhere.not_unix]
  cases ho with
  | unsupported hne => exact absurd hscheme hne
  | nowhere => exact ⟨rfl, rfl, rfl⟩
  | opened hconnectable | refused _ hconnectable | interrupted _ hconnectable => exact absurd hconnectable hplace

end Session

namespace Storage

variable {σ : Type} [Peer σ] {e : Endpoint} {op : Operation} {text : String}

/-- The first operation of a store asserts the supported scheme before it makes any call. -/
theorem perform_of_unsupported (hop : op ≠ .close) (hscheme : e.scheme ≠ Endpoint.supportedScheme)
    (settings : BackendSettings) (peer : σ) (logging : Logging.State) :
    let x := Scene.fresh e settings peer logging
    (op.perform x).1 = .error (.assertion [.text e.scheme]) ∧ (op.perform x).2.line = x.line ∧
      (op.perform x).2.session = { x.session with phase := .connecting } := by
  intro x
  obtain ⟨calls, hcourse, hleads⟩ := op.course x
  generalize (op.perform x).1 = r, (op.perform x).2.session = t at hcourse ⊢
  cases hcourse with
  | closed => exact absurd rfl hop
  | interrupted _ hr =>
    obtain ⟨rfl, hresult, rfl⟩ := (hr.opening rfl rfl).of_unsupported hscheme
    exact ⟨congrArg _ (Except.error.inj hresult), hleads.eq_of_nil, rfl⟩
  | unready _ hr | served hr =>
    obtain ⟨-, hresult, -⟩ := (hr.opening rfl rfl).of_unsupported hscheme
    cases hresult

/-- The first operation of a store that is nowhere says so and makes no call. -/
theorem perform_of_nowhere (hop : op ≠ .close) (hscheme : e.scheme = Endpoint.supportedScheme) (hnowhere : e.IsNowhere)
    (settings : BackendSettings) (peer : σ) (logging : Logging.State) :
    let x := Scene.fresh e settings peer logging
    (op.perform x).1 = .ok (.failure (Session.invalidEndpoint e.url)) ∧ (op.perform x).2.line = x.line ∧
      (op.perform x).2.session = { x.session with phase := .invalid } := by
  intro x
  obtain ⟨calls, hcourse, hleads⟩ := op.course x
  generalize (op.perform x).1 = r, (op.perform x).2.session = t at hcourse ⊢
  cases hcourse with
  | closed => exact absurd rfl hop
  | unready _ hr =>
    obtain ⟨rfl, hresult, rfl⟩ := (hr.opening rfl rfl).of_nowhere hscheme hnowhere
    cases hresult
    exact ⟨rfl, hleads.eq_of_nil, rfl⟩
  | interrupted _ hr | served hr =>
    obtain ⟨-, hresult, -⟩ := (hr.opening rfl rfl).of_nowhere hscheme hnowhere
    cases hresult

/-- **A URL leads to one place, and all that deals with an endpoint takes it there.** The first operation tells that an
endpoint of the supported scheme is nowhere, and fails for any other scheme; no handle is created for either. A store
is opened exactly for the endpoints of the supported scheme, and for any other scheme nothing else is looked at. -/
theorem urls_lead_to_one_place (text : String) :
    ((∃ e, Endpoint.ofUrl text = .ok e) ∨ ∃ error, Endpoint.ofUrl text = .error error ∧
      ((∃ u, error = .url u) ∨ error = .port text ∨ error = .invalid [⟨.notPositive, [.name "port"]⟩])) ∧
    (∀ e, Endpoint.ofUrl text = .ok e → Endpoint.Coherent text e ∧
      (∀ settings host port, (ConnectionOptions.of e settings).target = .tcp host port ↔
        e.isTcp = true ∧ host = e.host ∧ port = e.port) ∧
      (∀ other e', Endpoint.ofUrl other = .ok e' → e.isTcp = true → e'.isTcp = true → e.describe = e'.describe →
        e.host = e'.host ∧ e.port = e'.port) ∧
      ∀ settings (peer : σ) logging (op : Operation), op ≠ .close →
        let x := Scene.fresh e settings peer logging
        (e.scheme = "redis" → e.IsNowhere → ∃ detail, (op.perform x).1 = .ok (.failure detail) ∧
          detail.code = .invalidEndpoint ∧ (op.perform x).2.line = x.line ∧
            (op.perform x).2.session = { x.session with phase := .invalid }) ∧
        (e.scheme ≠ "redis" → (op.perform x).1 = .error (.assertion [.text e.scheme]) ∧
          (op.perform x).2.line = x.line ∧ (op.perform x).2.session = { x.session with phase := .connecting })) ∧
    (∀ attributes settings, BackendSettings.ofAttributes attributes = .valid settings → ∀ s,
      build text attributes = .ok s ↔
        ∃ e, Endpoint.ofUrl text = .ok e ∧ e.scheme = "redis" ∧ s = { endpoint := e, settings }) ∧
    ∀ u, Url.parse text.toList = .ok u → String.ofList u.scheme ≠ "redis" → ∀ attributes,
      (build text attributes).mapError Error.message =
        .error ("unsupported secondary storage scheme: " ++ Text.Quoted.quote (String.ofList u.scheme)) := by
  refine ⟨?_, fun e he => ?_, fun attributes settings hsettings s => ?_, fun u hparse hscheme attributes => ?_⟩
  · cases h : Endpoint.ofUrl text with
    | ok e => exact .inl ⟨e, rfl⟩
    | error error =>
      refine .inr ⟨error, rfl, ?_⟩
      exact (Endpoint.ofUrl_eq_error h).imp_left fun ⟨u, _, hu⟩ => ⟨u, hu⟩
  · have hcoherent := Endpoint.coherent he
    refine ⟨hcoherent, fun _ _ _ => Endpoint.target_eq_tcp, fun _ _ _ => Endpoint.describe_inj,
      fun settings peer logging op hop => ⟨fun hscheme hnowhere => ?_, fun hscheme => ?_⟩⟩
    · obtain ⟨hresult, hrest⟩ := perform_of_nowhere hop hscheme hnowhere settings peer logging
      exact ⟨_, hresult, rfl, hrest⟩
    · exact perform_of_unsupported hop hscheme settings peer logging
  · rw [build_eq_ok]
    constructor
    · rintro ⟨e, settings', he, hscheme, hsettings', rfl⟩
      cases hsettings.symm.trans hsettings'
      exact ⟨e, he, hscheme, rfl⟩
    · rintro ⟨e, he, hscheme, rfl⟩
      exact ⟨e, settings, he, hscheme, hsettings, rfl⟩
  · rw [build_of_unsupported hparse hscheme]
    rfl

/-- A URL with neither a host nor a path, one of an address in brackets, and one of another scheme whose port is no
number either. -/
theorem urls_lead_to_one_place_nowhere :
    (∃ e, Endpoint.ofUrl "redis://" = .ok e ∧ e.describe = "" ∧ ∀ settings, ∃ detail,
      ((Operation.remove ⟨List.replicate 20 0, rfl⟩).perform (Scene.fresh e settings ({} : Steady))).1 =
        .ok (.failure detail) ∧ detail.code = .invalidEndpoint) ∧
    (∃ e, Endpoint.ofUrl "redis://[::1]:7000" = .ok e ∧ (∀ settings,
      (ConnectionOptions.of e settings).target = .tcp "::1" 7000) ∧
      ∃ settings, build "redis://[::1]:7000" [] = .ok { endpoint := e, settings }) ∧
    (build "http://host:x" [("connect-timeout", .text "soon")]).mapError Error.message =
      .error "unsupported secondary storage scheme: 'http'" := by
  have hnowhere : Endpoint.ofUrl "redis://" = .ok ⟨"redis://", "redis", "", 6379, ""⟩ :=
    toOption_eq_some.1 (by decide +kernel)
  have haddress : Endpoint.ofUrl "redis://[::1]:7000" = .ok ⟨"redis://[::1]:7000", "redis", "::1", 7000, ""⟩ :=
    toOption_eq_some.1 (by decide +kernel)
  have hother : Url.parse "http://host:x".toList = .ok ⟨"http".toList, "host:x".toList, []⟩ :=
    toOption_eq_some.1 (by decide +kernel)
  obtain ⟨-, hfirst, -, -⟩ := @urls_lead_to_one_place Steady _ "redis://"
  obtain ⟨-, htcp, hbuild, -⟩ := @urls_lead_to_one_place Steady _ "redis://[::1]:7000"
  obtain ⟨-, -, -, hunsupported⟩ := @urls_lead_to_one_place Steady _ "http://host:x"
  obtain ⟨hcoherent, -, -, hperform⟩ := hfirst _ hnowhere
  refine ⟨⟨_, hnowhere, hcoherent.described.2 (by decide), fun settings => ?_⟩,
    ⟨_, haddress, fun settings => ?_, ⟨100, 10000, none, none⟩, ?_⟩, ?_⟩
  · obtain ⟨detail, hresult, hcode, -⟩ := (hperform settings {} {} (.remove ⟨List.replicate 20 0, rfl⟩) nofun).1 rfl
      (by decide)
    exact ⟨detail, hresult, hcode⟩
  · exact ((htcp _ haddress).2.1 settings "::1" 7000).2 (by decide)
  · exact (hbuild [] _ rfl _).2 ⟨_, haddress, rfl, rfl⟩
  · rw [hunsupported _ hother (by decide)]
    exact congrArg Except.error (by decide +kernel)

/-- A session for another scheme fails in the same way wherever the endpoint is, also nowhere. -/
theorem unsupported_nowhere_fails :
    ∃ e, Endpoint.ofUrl "http://" = .ok e ∧ e.IsNowhere ∧ ∀ settings,
      ((Operation.get ⟨List.replicate 20 0, rfl⟩).perform (Scene.fresh e settings ({} : Steady))).1 =
        .error (.assertion [.text "http"]) := by
  have hread : Endpoint.ofUrl "http://" = .ok ⟨"http://", "http", "", 6379, ""⟩ :=
    toOption_eq_some.1 (by decide +kernel)
  refine ⟨_, hread, by decide, fun settings => ?_⟩
  have hget : Operation.get ⟨List.replicate 20 0, rfl⟩ ≠ .close := nofun
  exact (perform_of_unsupported hget (by decide) settings _ _).1

end Storage
end RemoteCache
