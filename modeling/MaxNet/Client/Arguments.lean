import MaxNet.Lib.Lists
import MaxNet.Console
import MaxNet.Message.MaxMessage
import MaxNet.NetUrl.Grammar
import MaxNet.NetUrl.Setters

namespace MaxNet

open NetUrl

section Loops

variable {A : Type} (api : AddressApi A)

def std (result : Except StdError α) : Except UrlFault α := result.mapError (.thrown ∘ .std)

def portArgument (n : Int64) : List Char := (toString n.toInt32.toInt).toList

def takeArgument (url : NetUrl (Endpoint A)) : Atom → Except UrlFault (NetUrl (Endpoint A))
  | .sym s =>
    if !url.valid then do
      let (tUrl, ec) ← parse api s.toList
      if ec ≠ .success then
        if ← std url.hasPort then
          let _ ← std tUrl.hasPort
      return tUrl
    else .ok url
  | .float _ => .ok url
  | .long n => do
    if !(← std url.hasPort) then
      match url.setPort api (portArgument n) with
      | (url, .ok _) => .ok url
      | (_, .error x) => .error (.thrown x)
    else .ok url
  | .other _ => .ok url

def netUrlFromAtoms (args : List Atom) : Except UrlFault (NetUrl (Endpoint A)) :=
  if 0 < args.length then args.foldlM (takeArgument api) {} else .ok {}

variable (c : AtomConversions)

def WebsocketClient.takeArgument (state : NetUrl (Endpoint A) × List Post) :
    Atom → Except UrlFault (NetUrl (Endpoint A) × List Post)
  | .sym s =>
    let (url, posts) := state
    if !url.valid then do
      let (tUrl, ec) ← parse api s.toList
      let posts := if ec ≠ .success then
        posts ++ [.cerr "symbol argument could not be decoded to an url".toList] else posts
      let both ← if ← std url.hasPort then std tUrl.hasPort else .ok false
      return (tUrl, if both then posts ++ [.cerr "Found multiple port arguments!".toList] else posts)
    else .ok (url, posts)
  | .float _ => .ok (state.1, state.2 ++ [.cerr "float not supported as argument".toList])
  | .long n => do
    let (url, posts) := state
    let posts := posts ++ [.cout ("long arg: ".toList ++ (c.toString (.long n)).toList)]
    if !(← std url.hasPort) then
      match url.setPort api (portArgument n) with
      | (url, .ok success) =>
        .ok (url, if !success then posts ++ [.cerr "could not set port arg".toList] else posts)
      | (_, .error x) => .error (.thrown x)
    else .ok (url, posts ++ [.cerr "Found multiple port arguments!".toList])
  | .other _ => .ok (state.1, state.2 ++ [.cerr "unsupported argument type".toList])

/-- The constructor up to `make_connection( url )`: the url it is called with, if it is called. -/
def WebsocketClient.construct (args : List Atom) :
    Except UrlFault (Option (NetUrl (Endpoint A)) × List Post) :=
  if 0 < args.length then do
    let (url, posts) ← args.foldlM (WebsocketClient.takeArgument api c) ({}, [])
    let posts := posts ++ [.cout ("address: ".toList ++ url.host)]
    let posts := posts ++ [.cout ("port: ".toList ++ (← std url.port))]
    if url.valid then return (some url, posts ++ [.cout "running network io worker thread".toList])
    else return (none, posts ++ [.cout "no valid websocket address provided".toList])
  else .ok (none, [])

structure ReadsArguments (turn : NetUrl (Endpoint A) → Atom → Except UrlFault (NetUrl (Endpoint A))) : Prop where
  float : ∀ url x, turn url (.float x) = .ok url
  sym : ∀ url s, url.valid = false → url.hasPort = .ok false →
    turn url (.sym s) = (parse api s.toList).map Prod.fst
  long_set : ∀ url n after, url.hasPort = .ok false → url.setPort api (portArgument n) = (after, .ok true) →
    turn url (.long n) = .ok after
  long_thrown : ∀ url n after x, url.hasPort = .ok false →
    url.setPort api (portArgument n) = (after, .error x) → turn url (.long n) = .error (.thrown x)

theorem takeArgument_reads : ReadsArguments api (takeArgument api) where
  float := fun _ _ => rfl
  sym := by
    intro url s invalid none
    simp only [takeArgument, invalid, none]
    cases parse api s.toList with
    | error x => rfl
    | ok result =>
      rcases result with ⟨tUrl, ec⟩
      by_cases success : ec = .success
      · simp [success, bind, Except.bind, Except.map, pure, Except.pure]
      · simp [success, std, Except.mapError, bind, Except.bind, Except.map, pure, Except.pure]
  long_set := by
    intro url n after none set
    simp [takeArgument, none, set, std, Except.mapError, bind, Except.bind]
  long_thrown := by
    intro url n after x none thrown
    simp [takeArgument, none, thrown, std, Except.mapError, bind, Except.bind]

def WebsocketClient.takeUrl (url : NetUrl (Endpoint A)) (arg : Atom) : Except UrlFault (NetUrl (Endpoint A)) :=
  (WebsocketClient.takeArgument api c (url, []) arg).map Prod.fst

theorem WebsocketClient.takeUrl_reads : ReadsArguments api (WebsocketClient.takeUrl api c) where
  float := fun _ _ => rfl
  sym := by
    intro url s invalid none
    simp only [WebsocketClient.takeUrl, WebsocketClient.takeArgument, invalid, none]
    cases parse api s.toList with
    | error x => rfl
    | ok result => rfl
  long_set := by
    intro url n after none set
    simp [WebsocketClient.takeUrl, WebsocketClient.takeArgument, none, set, std, Except.mapError, bind, Except.bind,
      Except.map]
  long_thrown := by
    intro url n after x none thrown
    simp [WebsocketClient.takeUrl, WebsocketClient.takeArgument, none, thrown, std, Except.mapError, bind, Except.bind,
      Except.map]

theorem WebsocketClient.map_takeArgument (state : NetUrl (Endpoint A) × List Post) (arg : Atom) :
    (WebsocketClient.takeArgument api c state arg).map Prod.fst = WebsocketClient.takeUrl api c state.1 arg := by
  rcases state with ⟨url, posts⟩
  unfold WebsocketClient.takeUrl
  cases arg with
  | sym s =>
    simp only [WebsocketClient.takeArgument]
    by_cases valid : url.valid = true
    · simp [valid, Except.map]
    · simp only [valid, Bool.not_false, if_true]
      cases parse api s.toList with
      | error x => rfl
      | ok result =>
        rcases result with ⟨tUrl, ec⟩
        simp only [bind, Except.bind]
        cases std url.hasPort with
        | error x => rfl
        | ok has =>
          cases has with
          | false => rfl
          | true =>
            simp only [if_true]
            cases std tUrl.hasPort with
            | error x => rfl
            | ok both => rfl
  | float x => rfl
  | long n =>
    simp only [WebsocketClient.takeArgument]
    cases std url.hasPort with
    | error x => rfl
    | ok has =>
      cases has with
      | true => rfl
      | false =>
        simp only [bind, Except.bind]
        rcases url.setPort api (portArgument n) with ⟨after, x | success⟩
        · rfl
        · rfl
  | other type => rfl

end Loops

theorem isNumber_toDigits (n : Nat) : isNumber (Nat.toDigits 10 n) = true := by
  have nonempty : Nat.toDigits 10 n ≠ [] := Nat.toDigits_ne_nil
  have digits : ∀ c ∈ Nat.toDigits 10 n, c.isDigit = true := by
    intro c member
    exact Nat.isDigit_of_mem_toDigits (by decide) (by decide) member
  simp [isNumber, nonempty, List.all_eq_true.mpr digits]

theorem digitsValue_toDigits (n : Nat) : digitsValue (Nat.toDigits 10 n) = n := by
  have value : Nat.ofDigitChars 10 (Nat.toDigits 10 n) 0 = n := Nat.ofDigitChars_ten_toDigits
  rw [Nat.ofDigitChars_eq_foldl] at value
  exact value

structure PortNumber (n : Int64) : Prop where
  positive : 1 ≤ n.toInt
  small : n.toInt ≤ 65535

theorem portArgument_eq {n : Int64} (port : PortNumber n) : portArgument n = Nat.toDigits 10 n.toInt.toNat := by
  have positive := port.positive
  have small := port.small
  have same : n.toInt32.toInt = n.toInt := by
    rw [Int64.toInt_toInt32]
    apply Int.bmod_eq_of_le
    · omega
    · omega
  unfold portArgument
  rw [same, Int.toString_eq_repr, Int.repr_eq_if, if_pos (by omega), Nat.toList_repr]

section Loops

variable {A : Type} {api : AddressApi A}

structure GivesUrl (u : UrlText) (n : Int64) (url : NetUrl (Endpoint A)) : Prop where
  valid : url.valid = true
  host : url.host = u.host
  path : url.path = u.path
  port : ∃ text, url.port = .ok text ∧ (digitsValue text : Int) = n.toInt

theorem givesUrl_of_fields {u : UrlText} {n : Int64} {url : NetUrl (Endpoint A)} (port : PortNumber n)
    (host : url.hostname = u.host) (path : url.pathText = u.path) (text : url.portText = portArgument n) :
    GivesUrl u n url := by
  have positive := port.positive
  have small := port.small
  rw [portArgument_eq port] at text
  have number : isNumber url.portText = true := text ▸ isNumber_toDigits _
  have value : digitsValue url.portText = n.toInt.toNat := text ▸ digitsValue_toDigits _
  have range : url.PortInRange := ⟨number, by omega⟩
  have fits : url.PortFits := fun _ => by omega
  exact
    { valid := by simp [valid, host, u.host_nonempty, number]
      host := host
      path := path
      port := ⟨url.portText, by rw [port_eq_of_fits url fits, if_pos range], by omega⟩ }

variable (api) in
theorem parse_plain (u : UrlText) (plain : u.port = none) :
    (api.fromString u.host = none ∧ ∃ x, parse api u.text = .error x) ∨
      ∃ url, parse api u.text = .ok (url, .success) ∧ url.hostname = u.host ∧ url.portText = [] ∧
        url.pathText = u.path := by
  have empty : (u.target : NetUrl (Endpoint A)).portText = [] := by simp [UrlText.target, plain]
  have path : pathOf (u.segments.map Prod.snd) = u.path := UrlText.pathOf_segments _
  rw [UrlText.parse_eq_parsePath]
  cases known : api.makeAddressV4 u.host with
  | none =>
    rw [parsePath_name u.target _ rfl known]
    exact Or.inr ⟨_, rfl, rfl, empty, path⟩
  | some literal =>
    have fits : (withPath (u.segments.map Prod.snd) u.target : NetUrl (Endpoint A)).PortFits :=
      u.target_fits (A := A)
    rw [parsePath_literal u.target _ rfl known]
    cases accepted : api.fromString u.host with
    | none =>
      rw [ownEndpoints_of_unknown _ fits accepted]
      exact Or.inl ⟨rfl, _, rfl⟩
    | some address =>
      rw [ownEndpoints_of_address _ fits accepted]
      exact Or.inr ⟨_, rfl, rfl, empty, path⟩

variable (api) in
theorem setPort_argument {n : Int64} (port : PortNumber n) (url : NetUrl (Endpoint A)) :
    ((∃ address, api.fromString url.host = some address) ∧ ∃ after,
      url.setPort api (portArgument n) = (after, .ok true) ∧ after.hostname = url.hostname ∧
        after.pathText = url.pathText ∧ after.portText = portArgument n) ∨
    (api.fromString url.host = none ∧ ∃ after x, url.setPort api (portArgument n) = (after, .error x)) := by
  have positive := port.positive
  have small := port.small
  have number : isNumber (portArgument n) = true := portArgument_eq port ▸ isNumber_toDigits _
  have value : digitsValue (portArgument n) = n.toInt.toNat := portArgument_eq port ▸ digitsValue_toDigits _
  unfold setPort
  rw [if_pos number]
  rcases recompute_cases api { url with portText := portArgument n } with
    ⟨fits, address, known, done⟩ | ⟨overlong | unknown, x, thrown⟩
  · rw [done]
    exact Or.inl ⟨⟨address, known⟩, _, rfl, rfl, rfl, rfl⟩
  · apply absurd ?_ overlong
    intro _
    show digitsValue (portArgument n) ≤ 2147483647
    omega
  · rw [thrown]
    exact Or.inr ⟨unknown, _, x, rfl⟩

/-- Of a host and a port in either order, only an address in front of the port makes the url. -/
theorem reads_url_iff {turn : NetUrl (Endpoint A) → Atom → Except UrlFault (NetUrl (Endpoint A))}
    (reads : ReadsArguments api turn) (nothing : api.fromString [] = none) (u : UrlText) (plain : u.port = none)
    {n : Int64} (port : PortNumber n) {pair : List Atom}
    (either : pair = [.sym (String.ofList u.text), .long n] ∨ pair = [.long n, .sym (String.ofList u.text)]) :
    (∃ url, pair.foldlM turn {} = .ok url ∧ GivesUrl u n url) ↔
      pair = [.sym (String.ofList u.text), .long n] ∧ ∃ address, api.fromString u.host = some address := by
  rcases either with rfl | rfl
  · have read : turn {} (.sym (String.ofList u.text)) = (parse api u.text).map Prod.fst := by
      rw [reads.sym {} (String.ofList u.text) rfl rfl, String.toList_ofList]
    rw [List.foldlM_cons, read, and_iff_right rfl]
    rcases parse_plain api u plain with ⟨unknown, x, thrown⟩ | ⟨url, returns, host, noPort, path⟩
    · rw [thrown, unknown]
      simp [Except.map, bind, Except.bind]
    · have none : url.hasPort = .ok false := by simp [hasPort, noPort, isNumber]
      simp only [returns, Except.map, bind, Except.bind, List.foldlM_cons, List.foldlM_nil]
      rcases setPort_argument api port url with
        ⟨known, after, set, kept, samePath, text⟩ | ⟨unknown, after, x, thrown⟩
      · have gives : GivesUrl u n after := givesUrl_of_fields port (kept.trans host) (samePath.trans path) text
        rw [reads.long_set url n after none set]
        apply iff_of_true
        · exact ⟨after, rfl, gives⟩
        · rw [← host]
          exact known
      · rw [reads.long_thrown url n after x none thrown]
        apply iff_of_false
        · simp
        · rintro ⟨address, known⟩
          rw [← host] at known
          exact absurd (known.symm.trans unknown) (Option.some_ne_none address)
  · apply iff_of_false
    · rcases setPort_argument api port {} with ⟨⟨address, known⟩, _⟩ | ⟨_, after, x, thrown⟩
      · exact absurd (known.symm.trans nothing) (Option.some_ne_none address)
      · rw [List.foldlM_cons, reads.long_thrown {} n after x rfl thrown]
        simp [bind, Except.bind]
    · simp

def isArgument : Atom → Bool
  | .float _ => false
  | _ => true

theorem foldlM_arguments {turn : NetUrl (Endpoint A) → Atom → Except UrlFault (NetUrl (Endpoint A))}
    (reads : ReadsArguments api turn) (args : List Atom) (url : NetUrl (Endpoint A)) :
    args.foldlM turn url = (args.filter isArgument).foldlM turn url := by
  have same : (fun url arg => if isArgument arg then turn url arg else pure url) = turn := by
    funext url arg
    cases arg with
    | float x => exact (reads.float url x).symm
    | _ => rfl
  rw [List.foldlM_filter, same]

theorem WebsocketClient.construct_gives_iff (c : AtomConversions) (u : UrlText) (n : Int64) {args : List Atom}
    (nonempty : 0 < args.length) :
    (∃ url posts, WebsocketClient.construct api c args = .ok (some url, posts) ∧ GivesUrl u n url) ↔
      ∃ url, args.foldlM (WebsocketClient.takeUrl api c) {} = .ok url ∧ GivesUrl u n url := by
  have loop := Lists.map_foldlM Prod.fst (WebsocketClient.map_takeArgument api c) args ({}, [])
  unfold WebsocketClient.construct
  rw [if_pos nonempty, ← loop]
  cases args.foldlM (WebsocketClient.takeArgument api c) ({}, []) with
  | error x => simp [Except.map, bind, Except.bind]
  | ok state =>
    rcases state with ⟨url, posts⟩
    simp only [Except.map, bind, Except.bind]
    constructor
    · rintro ⟨other, lines, done, gives⟩
      refine ⟨url, rfl, ?_⟩
      cases port : url.port with
      | error x =>
        rw [port] at done
        cases done
      | ok text =>
        simp only [port, std, Except.mapError] at done
        split at done
        · cases done
          exact gives
        · cases done
    · rintro ⟨other, done, gives⟩
      cases done
      obtain ⟨text, port, _⟩ := gives.port
      simp only [port, std, Except.mapError, gives.valid, if_true, pure, Except.pure]
      exact ⟨url, _, rfl, gives⟩

variable (api) in
/-- A host without a port, a port and any number of floats, in any order, give the url they say exactly
    when the host is an address and stands in front of the port. -/
theorem arguments_give_url_iff (c : AtomConversions) (nothing : api.fromString [] = none) (u : UrlText)
    (plain : u.port = none) (n : Int64) (port : PortNumber n) (floats : List Binary64) (args : List Atom)
    (order : args.Perm (.sym (String.ofList u.text) :: .long n :: floats.map .float)) :
    ((∃ url, netUrlFromAtoms api args = .ok url ∧ GivesUrl u n url) ↔
        [.sym (String.ofList u.text), .long n].Sublist args ∧ ∃ address, api.fromString u.host = some address) ∧
      ((∃ url posts, WebsocketClient.construct api c args = .ok (some url, posts) ∧ GivesUrl u n url) ↔
        [.sym (String.ofList u.text), .long n].Sublist args ∧ ∃ address, api.fromString u.host = some address) := by
  have nonempty : 0 < args.length := by
    rw [order.length_eq]
    simp
  have skip : ∀ arg ∈ floats.map Atom.float, ¬ isArgument arg = true := by simp [isArgument]
  have pair := Lists.filter_of_perm_pair order rfl rfl skip
  rw [Lists.sublist_pair_iff (p := isArgument) (by simp) rfl rfl pair,
    WebsocketClient.construct_gives_iff c u n nonempty, netUrlFromAtoms, if_pos nonempty,
    foldlM_arguments (takeArgument_reads api), foldlM_arguments (WebsocketClient.takeUrl_reads api c)]
  constructor
  · exact reads_url_iff (takeArgument_reads api) nothing u plain port pair
  · exact reads_url_iff (WebsocketClient.takeUrl_reads api c) nothing u plain port pair

end Loops

def nameText : UrlText where
  scheme := none
  host := ['h']
  port := none
  segments := []
  trailing := 0
  host_nonempty := by decide
  host_no_slash := by decide
  host_no_colon := by decide
  port_number := by decide
  segments_clean := by decide

def addressText : UrlText :=
  { UrlText.literalText with
    port := none
    segments := [(0, ['a'])]
    trailing := 0
    port_number := by decide
    segments_clean := by decide }

theorem arguments_give_url_iff_address :
    (∃ url, netUrlFromAtoms dottedQuads
        [.float (.infinite true), .sym (String.ofList addressText.text), .long 40000] = .ok url ∧
      GivesUrl addressText 40000 url) ∧
    ∃ url posts, WebsocketClient.construct dottedQuads ownConversions
        [.float (.infinite true), .sym (String.ofList addressText.text), .long 40000] = .ok (some url, posts) ∧
      GivesUrl addressText 40000 url := by
  have both := arguments_give_url_iff dottedQuads ownConversions (by decide) addressText rfl 40000
    ⟨by decide, by decide⟩ [.infinite true]
    [.float (.infinite true), .sym (String.ofList addressText.text), .long 40000]
    ((List.Perm.swap _ _ _).trans ((List.Perm.swap _ _ _).cons _))
  have known : ∃ address, dottedQuads.fromString addressText.host = some address := ⟨16909060, by decide⟩
  exact ⟨both.1.mpr ⟨List.sublist_cons_self _ _, known⟩, both.2.mpr ⟨List.sublist_cons_self _ _, known⟩⟩

/-- A port behind a name, and a port in front of an address: the exception leaves both loops. -/
theorem arguments_refused :
    netUrlFromAtoms dottedQuads [.sym (String.ofList nameText.text), .long 8080] = .error (.thrown .badAddress) ∧
      netUrlFromAtoms dottedQuads [.long 8080, .sym (String.ofList addressText.text)] =
        .error (.thrown .badAddress) ∧
      WebsocketClient.construct dottedQuads ownConversions [.sym (String.ofList nameText.text), .long 8080] =
        .error (.thrown .badAddress) ∧
      ¬ ∃ url, netUrlFromAtoms dottedQuads [.sym (String.ofList nameText.text), .long 8080] = .ok url ∧
        GivesUrl nameText 8080 url := by
  have refused : netUrlFromAtoms dottedQuads [.sym (String.ofList nameText.text), .long 8080] =
      .error (.thrown .badAddress) := by rfl
  refine ⟨refused, by rfl, by rfl, ?_⟩
  rintro ⟨url, done, _⟩
  rw [refused] at done
  cases done

end MaxNet
