import MaxNet.Lib.Tokens
import MaxNet.NetUrl.Basic

namespace MaxNet

/-- The conversions of `boost::asio::ip::address`. `none` where the function throws. -/
structure AddressApi (A : Type) where
  makeAddressV4 : List Char → Option A
  fromString : List Char → Option A

structure AddressApi.Lawful {A : Type} (api : AddressApi A) : Prop where
  fromString_v4 : ∀ text address, api.makeAddressV4 text = some address → api.fromString text = some address

theorem AddressApi.Lawful.accepted {A : Type} {api : AddressApi A} (lawful : api.Lawful) {text : List Char}
    (literal : (api.makeAddressV4 text).isSome = true) : api.fromString text ≠ none := by
  obtain ⟨address, known⟩ := Option.isSome_iff_exists.mp literal
  rw [lawful.fromString_v4 text address known]
  exact Option.some_ne_none address

def octet (text : List Char) : Option Nat :=
  if isNumber text && (text.length == 1 || text.head? != some '0') && digitsValue text ≤ 255 then
    some (digitsValue text)
  else none

def dottedQuad (text : List Char) : Option Nat :=
  match (text.splitOn '.').map octet with
  | [some a, some b, some c, some d] => some (((a * 256 + b) * 256 + c) * 256 + d)
  | _ => none

def dottedQuads : AddressApi Nat := ⟨dottedQuad, dottedQuad⟩

theorem dottedQuads_lawful : dottedQuads.Lawful := ⟨fun _ _ known => known⟩

structure Endpoint (A : Type) where
  address : A
  port : UInt16
  deriving DecidableEq

inductive UrlException
  | std (x : StdError)
  | badAddress
  deriving DecidableEq, Repr

inductive UrlCode
  | fail
  | success
  deriving DecidableEq, Repr

inductive UrlFault
  | endDereference
  | thrown (x : UrlException)
  deriving DecidableEq, Repr

namespace NetUrl

def urlSeparatorChar : Char := '/'

def urlPrefix : List Char := ['w', 's', ':']

section

variable {E : Type}

def portInt (orDefault : Bool) (url : NetUrl E) : Except StdError Int16 := do
  if ← url.hasPort then
    return Int16.ofNat (← stoi (← url.port))
  else if orDefault then
    return Int16.ofNat (← stoi stdPort)
  else
    return 0

def PortInRange (url : NetUrl E) : Prop := isNumber url.portText = true ∧ digitsValue url.portText ≤ 65535

instance (url : NetUrl E) : Decidable url.PortInRange := by unfold PortInRange; infer_instance

def portNumber (url : NetUrl E) : Nat := if url.PortInRange then digitsValue url.portText else 80

theorem stoi_of_number {text : List Char} (number : isNumber text = true)
    (fits : digitsValue text ≤ 2147483647) : stoi text = .ok (digitsValue text) := by
  simp [stoi, number, fits]

theorem stoi_of_overlong {text : List Char} (number : isNumber text = true)
    (overlong : 2147483647 < digitsValue text) : stoi text = .error .outOfRange := by
  have exceeds : ¬ digitsValue text ≤ 2147483647 := by omega
  simp [stoi, number, exceeds]

theorem hasPort_of_fits (url : NetUrl E) (fits : url.PortFits) :
    url.hasPort = .ok (decide url.PortInRange) := by
  unfold hasPort PortInRange
  by_cases number : isNumber url.portText = true
  · have nonempty : url.portText ≠ [] := by
      intro empty
      rw [empty] at number
      cases number
    rw [if_pos number, stoi_of_number number (fits number)]
    simp [Except.map, number, nonempty]
  · simp [number]

theorem hasPort_of_overlong (url : NetUrl E) (overlong : ¬ url.PortFits) :
    url.hasPort = .error .outOfRange := by
  simp only [PortFits, Classical.not_imp, Nat.not_le] at overlong
  rw [hasPort, if_pos overlong.1, stoi_of_overlong overlong.1 overlong.2]
  rfl

theorem port_eq_of_fits (url : NetUrl E) (fits : url.PortFits) :
    url.port = .ok (if url.PortInRange then url.portText else stdPort) := by
  rw [port, hasPort_of_fits url fits]
  simp [Except.map]

theorem portNumber_le (url : NetUrl E) : url.portNumber ≤ 65535 := by
  unfold portNumber
  by_cases inRange : url.PortInRange
  · rw [if_pos inRange]
    exact inRange.2
  · rw [if_neg inRange]
    decide

theorem portNumber_toNat (url : NetUrl E) : (UInt16.ofNat url.portNumber).toNat = url.portNumber := by
  rw [UInt16.toNat_ofNat']
  exact Nat.mod_eq_of_lt (Nat.lt_succ_of_le url.portNumber_le)

theorem port_portNumber (url : NetUrl E) (fits : url.PortFits) :
    ∃ text, url.port = .ok text ∧ url.portNumber = digitsValue text := by
  rw [port_eq_of_fits url fits, portNumber]
  by_cases inRange : url.PortInRange
  · exact ⟨url.portText, by rw [if_pos inRange], if_pos inRange⟩
  · refine ⟨stdPort, by rw [if_neg inRange], ?_⟩
    rw [if_neg inRange]
    decide

theorem portInt_of_fits (url : NetUrl E) (fits : url.PortFits) :
    url.portInt true = .ok (Int16.ofNat url.portNumber) := by
  unfold portInt portNumber
  rw [hasPort_of_fits url fits, port_eq_of_fits url fits]
  by_cases inRange : url.PortInRange
  · have value : stoi url.portText = .ok (digitsValue url.portText) :=
      stoi_of_number inRange.1 (fits inRange.1)
    simp [inRange, value, bind, Except.bind, pure, Except.pure]
  · have value : stoi stdPort = .ok 80 := by decide
    simp [inRange, value, bind, Except.bind, pure, Except.pure]

theorem portInt_of_overlong (url : NetUrl E) (overlong : ¬ url.PortFits) :
    url.portInt true = .error .outOfRange := by
  rw [portInt, hasPort_of_overlong url overlong]
  rfl

end

variable {A : Type} (api : AddressApi A)

def isIp (url : NetUrl (Endpoint A)) : Bool := (api.makeAddressV4 url.host).isSome

/-- The conversion of `port` to the unsigned port of the endpoint is modulo 2^16. -/
def endpointSeqFromString (str : List Char) (port : Int16) : Except UrlException (List (Endpoint A)) :=
  match api.fromString str with
  | some address => .ok [⟨address, port.toUInt16⟩]
  | none => .error .badAddress

def ownEndpoints (url : NetUrl (Endpoint A)) : Except UrlException (List (Endpoint A)) :=
  match url.portInt true with
  | .ok port => endpointSeqFromString api url.host port
  | .error x => .error (.std x)

def parsePath (url : NetUrl (Endpoint A)) (address : List (List Char)) :
    Except UrlFault (NetUrl (Endpoint A) × UrlCode) :=
  let pathText := if address = [] then [urlSeparatorChar]
    else address.foldl (fun path token => path ++ [urlSeparatorChar] ++ token) url.pathText
  let url := { url with pathText }
  if url.isIp api then
    match url.ownEndpoints api with
    | .ok endpointSeq => .ok ({ url with endpointSeq }, .success)
    | .error x => .error (.thrown x)
  else .ok (url, .success)

def parseHost (token : List Char) (address : List (List Char)) :
    Except UrlFault (NetUrl (Endpoint A) × UrlCode) :=
  match token.idxOf? ':' with
  | some portPos =>
    let url := { hostname := token.take portPos, portText := token.drop (portPos + 1) }
    if isNumber url.portText then parsePath api url address else .ok (url, .fail)
  | none => parsePath api { hostname := token } address

def parse (text : List Char) : Except UrlFault (NetUrl (Endpoint A) × UrlCode) :=
  match Tokenizer.tokens urlSeparatorChar text with
  | [] => .error .endDereference
  | first :: rest =>
    match if first = urlPrefix then rest else first :: rest with
    | [] => .ok ({}, .fail)
    | token :: address => parseHost api token address

variable {api}

theorem ownEndpoints_of_address (url : NetUrl (Endpoint A)) (fits : url.PortFits) {address : A}
    (known : api.fromString url.host = some address) :
    url.ownEndpoints api = .ok [⟨address, UInt16.ofNat url.portNumber⟩] := by
  rw [ownEndpoints, portInt_of_fits url fits]
  simp only [endpointSeqFromString, known]
  rfl

theorem ownEndpoints_of_unknown (url : NetUrl (Endpoint A)) (fits : url.PortFits)
    (unknown : api.fromString url.host = none) : url.ownEndpoints api = .error .badAddress := by
  rw [ownEndpoints, portInt_of_fits url fits]
  simp only [endpointSeqFromString, unknown]

theorem ownEndpoints_of_overlong (url : NetUrl (Endpoint A)) (overlong : ¬ url.PortFits) :
    url.ownEndpoints api = .error (.std .outOfRange) := by
  rw [ownEndpoints, portInt_of_overlong url overlong]

def pathOf (address : List (List Char)) : List Char :=
  if address = [] then [urlSeparatorChar] else address.flatMap (List.cons urlSeparatorChar)

theorem foldl_separated (address : List (List Char)) (path : List Char) :
    address.foldl (fun path token => path ++ [urlSeparatorChar] ++ token) path =
      path ++ address.flatMap (List.cons urlSeparatorChar) := by
  induction address generalizing path with
  | nil => simp
  | cons token address ih => rw [List.foldl_cons, ih, List.flatMap_cons]; simp

def withPath (address : List (List Char)) (url : NetUrl (Endpoint A)) : NetUrl (Endpoint A) :=
  { url with pathText := pathOf address }

theorem parsePath_eq (url : NetUrl (Endpoint A)) (address : List (List Char)) (fresh : url.pathText = []) :
    parsePath api url address =
      if (withPath address url).isIp api then
        match (withPath address url).ownEndpoints api with
        | .ok endpointSeq => .ok ({ withPath address url with endpointSeq }, .success)
        | .error x => .error (.thrown x)
      else .ok (withPath address url, .success) := by
  unfold parsePath
  rw [foldl_separated, fresh, List.nil_append]
  rfl

theorem parsePath_name (url : NetUrl (Endpoint A)) (address : List (List Char)) (fresh : url.pathText = [])
    (name : api.makeAddressV4 url.host = none) :
    parsePath api url address = .ok (withPath address url, .success) := by
  have foreign : ¬ (withPath address url).isIp api = true := by
    show ¬ (api.makeAddressV4 url.host).isSome = true
    simp [name]
  rw [parsePath_eq url address fresh, if_neg foreign]

theorem parsePath_literal (url : NetUrl (Endpoint A)) (address : List (List Char)) (fresh : url.pathText = [])
    {literal : A} (known : api.makeAddressV4 url.host = some literal) :
    parsePath api url address =
      match (withPath address url).ownEndpoints api with
      | .ok endpointSeq => .ok ({ withPath address url with endpointSeq }, .success)
      | .error x => .error (.thrown x) := by
  have ip : (withPath address url).isIp api = true := by
    show (api.makeAddressV4 url.host).isSome = true
    simp [known]
  rw [parsePath_eq url address fresh, if_pos ip]

theorem parsePath_literal_of_fits (url : NetUrl (Endpoint A)) (address : List (List Char))
    (fresh : url.pathText = []) (lawful : api.Lawful) {literal : A}
    (known : api.makeAddressV4 url.host = some literal) (fits : url.PortFits) :
    parsePath api url address =
      .ok ({ withPath address url with endpointSeq := [⟨literal, UInt16.ofNat url.portNumber⟩] }, .success) := by
  have accepted : api.fromString (withPath address url).host = some literal :=
    lawful.fromString_v4 url.host literal known
  rw [parsePath_literal url address fresh known, ownEndpoints_of_address (withPath address url) fits accepted]
  rfl

variable (api) in
/-- The outcome of the last part of the constructor, up to path and endpoints. -/
theorem parsePath_cases (url : NetUrl (Endpoint A)) (address : List (List Char)) (fresh : url.pathText = []) :
    ((api.makeAddressV4 url.host).isSome = true ∧ (¬ url.PortFits ∨ api.fromString url.host = none) ∧
      ∃ x, parsePath api url address = .error x) ∨
    (¬ ((api.makeAddressV4 url.host).isSome = true ∧ ¬ url.PortFits) ∧
      ∃ result, parsePath api url address = .ok (result, .success) ∧ result.hostname = url.hostname ∧
        result.portText = url.portText) := by
  cases known : api.makeAddressV4 url.host with
  | none => exact Or.inr ⟨by simp, _, parsePath_name url address fresh known, rfl, rfl⟩
  | some literal =>
    rw [parsePath_literal url address fresh known]
    by_cases fits : url.PortFits
    · cases accepted : api.fromString url.host with
      | none =>
        rw [ownEndpoints_of_unknown (withPath address url) fits accepted]
        exact Or.inl ⟨rfl, Or.inr rfl, _, rfl⟩
      | some own =>
        rw [ownEndpoints_of_address (withPath address url) fits accepted]
        exact Or.inr ⟨by simp [fits], _, rfl, rfl, rfl⟩
    · rw [ownEndpoints_of_overlong (withPath address url) fits]
      exact Or.inl ⟨rfl, Or.inl fits, _, rfl⟩

theorem parseHost_plain {token : List Char} (plain : ':' ∉ token) (address : List (List Char)) :
    parseHost api token address = parsePath api { hostname := token } address := by
  unfold parseHost
  rw [List.idxOf?_eq_none_iff.mpr plain]

theorem parseHost_port {hostname : List Char} (plain : ':' ∉ hostname) (portText : List Char)
    (address : List (List Char)) :
    parseHost api (hostname ++ ':' :: portText) address =
      if isNumber portText then parsePath api { hostname, portText } address
      else .ok ({ hostname, portText }, .fail) := by
  unfold parseHost
  rw [Tokenizer.idxOf?_append_cons plain]
  simp

def targetTokens (text : List Char) : List (List Char) :=
  match Tokenizer.tokens urlSeparatorChar text with
  | [] => []
  | first :: rest => if first = urlPrefix then rest else first :: rest

def firstToken (text : List Char) : Option (List Char) := (targetTokens text).head?

theorem parse_of_blank {text : List Char} (blank : ∀ c ∈ text, c = urlSeparatorChar) :
    parse api text = .error .endDereference := by
  unfold parse
  rw [(Tokenizer.tokens_eq_nil_iff text).mpr blank]

theorem parse_of_target {text token : List Char} {address : List (List Char)}
    (target : targetTokens text = token :: address) : parse api text = parseHost api token address := by
  unfold targetTokens at target
  unfold parse
  cases split : Tokenizer.tokens urlSeparatorChar text with
  | nil => simp [split] at target
  | cons first rest =>
    simp only [split] at target
    simp only [target]

theorem parse_of_none {text : List Char} (blank : ¬ ∀ c ∈ text, c = urlSeparatorChar)
    (target : targetTokens text = []) : parse api text = .ok ({}, .fail) := by
  unfold targetTokens at target
  unfold parse
  cases split : Tokenizer.tokens urlSeparatorChar text with
  | nil => exact absurd ((Tokenizer.tokens_eq_nil_iff text).mp split) blank
  | cons first rest =>
    simp only [split] at target
    simp only [target]

theorem firstToken_eq_some {text token : List Char} (first : firstToken text = some token) :
    ∃ address, targetTokens text = token :: address :=
  List.head?_eq_some_iff.mp first

theorem mem_tokens_of_target {text token : List Char} (member : token ∈ targetTokens text) :
    token ∈ Tokenizer.tokens urlSeparatorChar text := by
  unfold targetTokens at member
  cases split : Tokenizer.tokens urlSeparatorChar text with
  | nil => simp [split] at member
  | cons first rest =>
    simp only [split] at member
    by_cases scheme : first = urlPrefix
    · rw [if_pos scheme] at member
      exact List.mem_cons_of_mem first member
    · rwa [if_neg scheme] at member

theorem token_ne_nil {text token : List Char} (first : firstToken text = some token) : token ≠ [] := by
  obtain ⟨address, target⟩ := firstToken_eq_some first
  have member : token ∈ targetTokens text := by simp [target]
  exact Tokenizer.ne_nil_of_mem_tokens (mem_tokens_of_target member)

end NetUrl

end MaxNet
