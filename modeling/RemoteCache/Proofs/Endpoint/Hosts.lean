import RemoteCache.Endpoint
import RemoteCache.Proofs.Endpoint.Parts

/-!
# Endpoints on a host

A URL of a store on a host is put together from a scheme, user information, a host, a port and a rest, of which the
user information and the port may be missing (`HostUrl`). Only the host has to be there, and only the port has to be a
number. What is user information and what is the rest may hold the delimiters of the other parts.

**Theorem (`host_and_port_are_read`).** Such a URL is read as the host in lower case and the number of the port
(`HostUrl.Reads`), or the default if there is no port or an empty one. A port that is no number or too large is refused,
and so is nought, in another way. No other part of the URL changes the host and the port that are read.

The authority of the URL is plain, so the URL falls into the parts that it was put together from
(`HostUrl.parse_text`), and so does the authority (`HostUrl.hostAndPort_authority`). From there on only the port
decides (`HostUrl.ofUrl_text`).
-/

namespace RemoteCache

/-! ## Ports -/

/-- The value of digits is their decimal value. -/
theorem Digits.natOf_eq (cs : List Char) : natOf cs = Nat.ofDigitChars 10 cs 0 := rfl

namespace Endpoint

variable {digits : List Char}

theorem readPort_zero : readPort (.int 0) = .error .notPositive := rfl

theorem readPort_of_le {n : Nat} (hpos : 0 < n) (hmax : n ≤ maxPort) : readPort (.int n) = .ok n := by
  have hpos' : ¬ (n : Int) ≤ 0 := by omega
  have hmax' : ¬ (maxPort : Int) < n := by omega
  simp only [readPort, Validation.integer, bind, Except.bind, hpos', hmax', if_false]
  rfl

theorem portOfText?_of_digits (hne : digits ≠ []) (hlength : digits.length ≤ Digits.limit)
    (hdigits : digits.all Char.isDigit = true) (hmax : Nat.ofDigitChars 10 digits 0 ≤ maxPort) :
    portOfText? digits = some (some (Nat.ofDigitChars 10 digits 0)) := by
  rw [portOfText?, if_neg hne, if_pos (by simp [hdigits, hlength, Digits.natOf_eq, hmax])]
  rfl

theorem portOfText?_eq_none (hne : digits ≠ [])
    (h : digits.all Char.isDigit = false ∨ maxPort < Nat.ofDigitChars 10 digits 0) : portOfText? digits = none := by
  rw [portOfText?, if_neg hne, if_neg]
  simp only [Bool.and_eq_true, decide_eq_true_eq]
  rintro ⟨⟨hdigits, -⟩, hmax⟩
  exact Nat.not_lt.2 hmax (h.resolve_left (by simp [hdigits]))

end Endpoint

/-! ## URLs part by part -/

/-- A URL of a store on a host. -/
structure HostUrl where
  scheme : List Char
  userinfo? : Option (List Char)
  host : List Char
  port? : Option (List Char)
  rest : List Char
  scheme_eq : scheme.map Char.toLower = Endpoint.supportedScheme.toList
  userinfo_plain : ∀ info ∈ userinfo?, ∀ c ∈ info, Url.isPlain c = true
  host_ne_nil : host ≠ []
  host_unreserved : ∀ c ∈ host, Url.isUnreserved c = true
  port_plain : ∀ port ∈ port?, (∀ c ∈ port, Url.isPlain c = true ∧ c ≠ '@') ∧ port.length ≤ Digits.limit
  rest_head : ∀ c ∈ rest.head?, c ∈ ['/', '?', '#']

namespace HostUrl

variable (u : HostUrl)

/-- What comes before the host in the authority. -/
def before : List Char := u.userinfo?.elim [] (· ++ ['@'])

/-- What comes behind the host in the authority. -/
def behind : List Char := u.port?.elim [] (':' :: ·)

def authority : List Char := u.before ++ (u.host ++ u.behind)

def text : String := String.ofList (u.scheme ++ ':' :: '/' :: '/' :: (u.authority ++ u.rest))

/-- The text of the port, empty if there is none. -/
def portText : List Char := u.port?.getD []

/-- The endpoint with this port. -/
def endpoint (port : Nat) : Endpoint where
  url := u.text
  scheme := Endpoint.supportedScheme
  host := String.ofList (u.host.map Char.toLower)
  port := port
  socketPath := ""

/-- What comes of reading the URL. -/
structure Reads (r : Except Endpoint.Error Endpoint) : Prop where
  default : u.portText = [] → r = .ok (u.endpoint 6379)
  named : u.portText ≠ [] → u.portText.all Char.isDigit = true → 0 < Nat.ofDigitChars 10 u.portText 0 →
    Nat.ofDigitChars 10 u.portText 0 ≤ 65535 → r = .ok (u.endpoint (Nat.ofDigitChars 10 u.portText 0))
  refused : u.portText ≠ [] → u.portText.all Char.isDigit = false ∨ 65535 < Nat.ofDigitChars 10 u.portText 0 →
    r = .error (.port u.text) ∧
      r.mapError Endpoint.Error.message = .error ("invalid port in Redis URL " ++ Text.Quoted.quote u.text)
  zero : u.portText ≠ [] → u.portText.all Char.isDigit = true → Nat.ofDigitChars 10 u.portText 0 = 0 →
    r = .error (.invalid [⟨.notPositive, [.name "port"]⟩])

/-! ## The parts are found again -/

theorem isWord_scheme : Url.IsWord u.scheme where
  ne_nil := by
    intro hnil
    have hscheme := u.scheme_eq
    rw [hnil] at hscheme
    exact absurd hscheme (by decide)
  isAlpha := by
    intro c hc
    have hlower : c.toLower ∈ Endpoint.supportedScheme.toList := u.scheme_eq ▸ List.mem_map_of_mem hc
    have hletters : Endpoint.supportedScheme.toList.all Char.isAlpha = true := by decide
    exact isAlpha_of_toLower (List.all_eq_true.1 hletters _ hlower)

theorem isPlain_before : ∀ c ∈ u.before, Url.isPlain c = true := by
  have hinfo := u.userinfo_plain
  unfold before
  cases hu : u.userinfo? with
  | none => simp
  | some info => exact List.forall_mem_append.2 ⟨hinfo info hu, List.all_eq_true.1 (by decide)⟩

/-- Nothing in the host and the port ends user information or opens a bracket. -/
theorem isPlain_place : ∀ c ∈ u.host ++ u.behind, Url.isPlain c = true ∧ c ≠ '@' := by
  have hhost : ∀ c ∈ u.host, Url.isPlain c = true ∧ c ≠ '@' := fun c hc =>
    ⟨Url.isPlain_of_isUnreserved (u.host_unreserved c hc), ne_of_class (u.host_unreserved c hc) (by decide)⟩
  have hport := u.port_plain
  refine List.forall_mem_append.2 ⟨hhost, ?_⟩
  unfold behind
  cases hp : u.port? with
  | none => simp
  | some port => exact List.forall_mem_cons.2 ⟨by decide, (hport port hp).1⟩

theorem isPlain_authority : ∀ c ∈ u.authority, Url.isPlain c = true :=
  List.forall_mem_append.2 ⟨u.isPlain_before, fun c hc => (u.isPlain_place c hc).1⟩

theorem parse_text : Url.parse u.text.toList = .ok ⟨Endpoint.supportedScheme.toList, u.authority,
    (u.rest.filter Url.isKept).takeWhile (!Url.endsPath ·)⟩ := by
  have hrest : ∀ c ∈ u.rest.head?, Url.endsAuthority c = true := by
    intro c hc
    simpa [Url.endsAuthority, or_assoc] using u.rest_head c hc
  rw [text, String.toList_ofList, Url.parse_assembled u.isWord_scheme u.isPlain_authority hrest, u.scheme_eq]

theorem hostAndPort_authority : Url.hostAndPort u.authority = (u.host, u.portText) := by
  have hbefore : ∀ c ∈ u.before.getLast?, c = '@' := by
    unfold before
    cases u.userinfo? <;> simp
  have hbehind : ∀ c ∈ u.behind.head?, c = ':' := by
    unfold behind
    cases u.port? <;> simp
  have hport : u.behind.drop 1 = u.portText := by
    unfold behind portText
    cases u.port? <;> rfl
  rw [← hport]
  refine Url.hostAndPort_assembled hbefore ?_ ?_ hbehind
  · exact fun c hc => ⟨(u.isPlain_place c hc).2, ne_of_class (u.isPlain_place c hc).1 (by decide)⟩
  · exact fun hmem => ne_of_class (u.host_unreserved _ hmem) (d := ':') (by decide) rfl

theorem host_eq (path : List Char) :
    Url.host ⟨Endpoint.supportedScheme.toList, u.authority, path⟩ = u.host.map Char.toLower := by
  have hpercent : ∀ c ∈ u.host, decide (c ≠ '%') = true := fun c hc => by
    simpa using ne_of_class (d := '%') (u.host_unreserved c hc) (by decide)
  have htake : (u.host ++ []).takeWhile (· ≠ '%') = u.host := takeWhile_part hpercent (by simp)
  have hdrop : (u.host ++ []).dropWhile (· ≠ '%') = [] := dropWhile_part hpercent (by simp)
  rw [List.append_nil] at htake hdrop
  unfold Url.host
  simp only [u.hostAndPort_authority, htake, hdrop, List.append_nil]
  exact Text.lower_ascii fun c hc => Url.ascii_of_isUnreserved (u.host_unreserved c hc)

/-! ## What is read -/

/-- What is read from the URL is up to the text of the port. -/
theorem ofUrl_text : Endpoint.ofUrl u.text =
    match Endpoint.portOfText? u.portText with
    | none => .error (.port u.text)
    | some port => match Endpoint.readPort (.int (port.getD Endpoint.defaultPort)) with
      | .error fault => .error (.invalid [⟨fault, [.name "port"]⟩])
      | .ok port => .ok (u.endpoint port) := by
  unfold Endpoint.ofUrl
  simp only [u.parse_text, Url.portText, u.hostAndPort_authority, u.host_eq]
  rw [if_neg (by simpa using u.host_ne_nil)]
  rfl

theorem length_portText : u.portText.length ≤ Digits.limit := by
  have hport := u.port_plain
  unfold portText
  cases hp : u.port? with
  | none => exact Nat.zero_le _
  | some port => exact (hport port hp).2

theorem reads : u.Reads (Endpoint.ofUrl u.text) := by
  rw [u.ofUrl_text]
  exact {
    default := fun hempty => by
      rw [hempty]
      rfl
    named := fun hne hdigits hpos hmax => by
      rw [Endpoint.portOfText?_of_digits hne u.length_portText hdigits hmax]
      simp only [Option.getD_some, Endpoint.readPort_of_le hpos hmax]
    refused := fun hne h => by
      rw [Endpoint.portOfText?_eq_none hne h]
      exact ⟨rfl, rfl⟩
    zero := fun hne hdigits hzero => by
      rw [Endpoint.portOfText?_of_digits hne u.length_portText hdigits (by simp [hzero]), hzero]
      simp only [Option.getD_some, Int.ofNat_zero, Endpoint.readPort_zero] }

/-- **A URL of a store on a host is read as its host and its port**, whatever else it holds. -/
theorem host_and_port_are_read (u : HostUrl) : u.Reads (Endpoint.ofUrl u.text) ∧
    ∀ v : HostUrl, v.host = u.host → v.port? = u.port? →
      (Endpoint.ofUrl v.text).toOption.map (fun e => (e.host, e.port)) =
        (Endpoint.ofUrl u.text).toOption.map fun e => (e.host, e.port) := by
  refine ⟨u.reads, fun v hhost hport => ?_⟩
  have htext : v.portText = u.portText := by rw [portText, portText, hport]
  rw [u.ofUrl_text, v.ofUrl_text, htext]
  cases Endpoint.portOfText? u.portText with
  | none => rfl
  | some port =>
    simp only
    cases Endpoint.readPort (.int (port.getD Endpoint.defaultPort)) with
    | error fault => rfl
    | ok port => simp [endpoint, hhost, Except.toOption]

/-- A URL with delimiters wherever they may stand. -/
def crowded : HostUrl where
  scheme := "rEdIs".toList
  userinfo? := some "user:pa@ss%2F".toList
  host := "Cache-1.Example_~".toList
  port? := some "006380".toList
  rest := "/0?next=redis://other:1@[x]\t#:2".toList
  scheme_eq := by decide
  userinfo_plain := by
    rintro _ ⟨⟩
    exact List.all_eq_true.1 (by decide)
  host_ne_nil := by decide
  host_unreserved := List.all_eq_true.1 (by decide)
  port_plain := by
    rintro _ ⟨⟩
    have hport : ("006380".toList.all fun c => Url.isPlain c && c ≠ '@') = true := by decide
    exact ⟨by simpa using hport, by decide⟩
  rest_head := by
    rintro _ ⟨⟩
    decide

theorem crowded_url_is_read :
    crowded.text = "rEdIs://user:pa@ss%2F@Cache-1.Example_~:006380/0?next=redis://other:1@[x]\t#:2" ∧
      Endpoint.ofUrl crowded.text = .ok (crowded.endpoint 6380) ∧
      (crowded.endpoint 6380).host = "cache-1.example_~" := by
  obtain ⟨⟨-, hnamed, -, -⟩, -⟩ := host_and_port_are_read crowded
  exact ⟨by decide, hnamed (by decide) (by decide) (by decide) (by decide), by decide⟩

end HostUrl
end RemoteCache
