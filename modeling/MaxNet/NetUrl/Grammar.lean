import MaxNet.NetUrl.Parse

namespace MaxNet

/-- A well-formed URL text: the slashes after `ws:` and in front of each segment are given by their
    number less one. -/
structure UrlText where
  scheme : Option Nat
  host : List Char
  port : Option (List Char)
  segments : List (Nat × List Char)
  trailing : Nat
  host_nonempty : host ≠ []
  host_no_slash : '/' ∉ host
  host_no_colon : ':' ∉ host
  port_number : ∀ text ∈ port, isNumber text = true ∧ digitsValue text ≤ 65535
  segments_clean : ∀ segment ∈ segments, segment.2 ≠ [] ∧ '/' ∉ segment.2

namespace UrlText

open NetUrl

def hostToken (u : UrlText) : List Char :=
  match u.port with
  | none => u.host
  | some port => u.host ++ ':' :: port

def slashed (u : UrlText) : List Char :=
  Tokenizer.spaced '/' u.segments ++ List.replicate u.trailing '/'

def text (u : UrlText) : List Char :=
  match u.scheme with
  | none => u.hostToken ++ u.slashed
  | some extra => urlPrefix ++ List.replicate (extra + 1) '/' ++ u.hostToken ++ u.slashed

def path (u : UrlText) : List Char := '/' :: ['/'].intercalate (u.segments.map Prod.snd)

def portText (u : UrlText) : List Char := u.port.getD stdPort

theorem isDigit_of_number {text : List Char} (number : isNumber text = true) : ∀ c ∈ text, c.isDigit = true := by
  have both : text ≠ [] ∧ ∀ c ∈ text, c.isDigit = true := by simpa [isNumber] using number
  exact both.2

theorem hostToken_nonempty (u : UrlText) : u.hostToken ≠ [] := by
  unfold hostToken
  cases u.port with
  | none => exact u.host_nonempty
  | some port => simp

theorem hostToken_no_slash (u : UrlText) : '/' ∉ u.hostToken := by
  unfold hostToken
  cases explicit : u.port with
  | none => exact u.host_no_slash
  | some port =>
    have digits := isDigit_of_number (u.port_number port explicit).1
    have slash : '/' ∉ port := by
      intro member
      have digit := digits '/' member
      revert digit
      decide
    simp [u.host_no_slash, slash]

theorem hostToken_not_prefix (u : UrlText) : u.hostToken ≠ urlPrefix := by
  unfold hostToken
  cases explicit : u.port with
  | none =>
    intro (same : u.host = urlPrefix)
    apply u.host_no_colon
    rw [same]
    decide
  | some port =>
    intro (same : u.host ++ ':' :: port = urlPrefix)
    have first := Tokenizer.idxOf?_append_cons u.host_no_colon port
    have length := congrArg List.length same
    rw [same, show urlPrefix.idxOf? ':' = some 2 by decide, Option.some.injEq] at first
    rw [List.length_append, List.length_cons, show urlPrefix.length = 3 by decide] at length
    have empty : port = [] := List.eq_nil_of_length_eq_zero (by omega)
    have number := (u.port_number port explicit).1
    rw [empty] at number
    cases number

/-- The constructor finds the host, the port and the segments. -/
theorem targetTokens_text (u : UrlText) :
    targetTokens u.text = u.hostToken :: u.segments.map Prod.snd := by
  have own : Tokenizer.tokens '/' (u.hostToken ++ u.slashed) = u.hostToken :: u.segments.map Prod.snd :=
    Tokenizer.tokens_append_spaced u.hostToken_nonempty u.hostToken_no_slash u.segments u.trailing u.segments_clean
  unfold targetTokens text
  cases u.scheme with
  | none =>
    simp only [urlSeparatorChar, own]
    rw [if_neg u.hostToken_not_prefix]
  | some extra =>
    have schemed : Tokenizer.tokens '/'
        (urlPrefix ++ List.replicate (extra + 1) '/' ++ u.hostToken ++ u.slashed) =
          urlPrefix :: u.hostToken :: u.segments.map Prod.snd := by
      have clean : ∀ piece ∈ (extra, u.hostToken) :: u.segments, piece.2 ≠ [] ∧ '/' ∉ piece.2 :=
        List.forall_mem_cons.mpr ⟨⟨u.hostToken_nonempty, u.hostToken_no_slash⟩, u.segments_clean⟩
      have nonempty : urlPrefix ≠ [] := by decide
      have whole := Tokenizer.tokens_append_spaced nonempty (by decide) _ u.trailing clean
      simpa [Tokenizer.spaced, slashed] using whole
    simp only [urlSeparatorChar, schemed, if_true]

theorem pathOf_segments (segments : List (List Char)) : pathOf segments = '/' :: ['/'].intercalate segments := by
  induction segments with
  | nil => rfl
  | cons segment rest ih =>
    cases rest with
    | nil => simp [pathOf, urlSeparatorChar, List.intercalate_singleton]
    | cons next rest =>
      rw [List.intercalate_cons_cons]
      simp only [pathOf, reduceCtorEq, if_false, List.flatMap_cons, urlSeparatorChar] at ih ⊢
      rw [List.cons_append, List.append_assoc, ih]
      simp

structure ReadBack {A : Type} (api : AddressApi A) (u : UrlText) (url : NetUrl (Endpoint A)) : Prop where
  host : url.host = u.host
  port : url.port = .ok u.portText
  path : url.path = u.path
  literal : ∀ address, api.makeAddressV4 u.host = some address →
    ∃ port : UInt16, port.toNat = digitsValue u.portText ∧ url.endpoints = [⟨address, port⟩]
  name : api.makeAddressV4 u.host = none → url.endpoints = []

variable {A : Type} {api : AddressApi A}

def target (u : UrlText) : NetUrl (Endpoint A) := { hostname := u.host, portText := u.port.getD [] }

theorem target_portInRange (u : UrlText) {port : List Char} (explicit : u.port = some port) :
    (u.target : NetUrl (Endpoint A)).PortInRange := by
  show isNumber (u.port.getD []) = true ∧ digitsValue (u.port.getD []) ≤ 65535
  rw [explicit]
  exact u.port_number port explicit

theorem target_fits (u : UrlText) : (u.target : NetUrl (Endpoint A)).PortFits := by
  intro number
  cases explicit : u.port with
  | none =>
    simp only [target, explicit] at number
    cases number
  | some port =>
    have range := (target_portInRange (A := A) u explicit).2
    omega

theorem target_port (u : UrlText) : (u.target : NetUrl (Endpoint A)).port = .ok u.portText := by
  rw [port_eq_of_fits _ u.target_fits]
  cases explicit : u.port with
  | none =>
    rw [if_neg (by simp [PortInRange, target, explicit, isNumber]), portText, explicit]
    rfl
  | some port =>
    rw [if_pos (u.target_portInRange explicit)]
    simp [target, portText, explicit]

theorem target_portNumber (u : UrlText) :
    (u.target : NetUrl (Endpoint A)).portNumber = digitsValue u.portText := by
  unfold portNumber
  cases explicit : u.port with
  | none =>
    rw [if_neg (by simp [PortInRange, target, explicit, isNumber]), portText, explicit]
    rfl
  | some port =>
    rw [if_pos (u.target_portInRange explicit)]
    simp [target, portText, explicit]

theorem parse_eq_parsePath (u : UrlText) :
    parse api u.text = parsePath api u.target (u.segments.map Prod.snd) := by
  rw [parse_of_target u.targetTokens_text, hostToken, target]
  cases explicit : u.port with
  | none => exact parseHost_plain u.host_no_colon _
  | some port =>
    simp only [parseHost_port u.host_no_colon, (u.port_number port explicit).1, if_true]
    rfl

/-- The constructor reads every well-formed URL text. -/
theorem parse_text (lawful : api.Lawful) (u : UrlText) :
    ∃ url, parse api u.text = .ok (url, .success) ∧ u.ReadBack api url := by
  rw [parse_eq_parsePath]
  have path := pathOf_segments (u.segments.map Prod.snd)
  have port : (u.target : NetUrl (Endpoint A)).port = .ok u.portText := u.target_port
  cases known : api.makeAddressV4 u.host with
  | none =>
    refine ⟨_, parsePath_name u.target _ rfl known, ?_⟩
    exact
      { host := rfl
        port := port
        path := path
        literal := fun address literal => by rw [known] at literal; cases literal
        name := fun _ => rfl }
  | some address =>
    refine ⟨_, parsePath_literal_of_fits u.target _ rfl lawful known u.target_fits, ?_⟩
    exact
      { host := rfl
        port := port
        path := path
        literal := fun other literal => by
          obtain rfl := Option.some.inj (known.symm.trans literal)
          exact ⟨_, (portNumber_toNat _).trans u.target_portNumber, rfl⟩
        name := fun name => by rw [known] at name; cases name }

def literalText : UrlText where
  scheme := some 1
  host := ['1', '.', '2', '.', '3', '.', '4']
  port := some ['4', '0', '0', '0', '0']
  segments := [(0, ['a']), (2, ['b', ':', 'c'])]
  trailing := 1
  host_nonempty := by decide
  host_no_slash := by decide
  host_no_colon := by decide
  port_number := by decide
  segments_clean := by decide

theorem parse_text_literal : ∃ url, parse dottedQuads literalText.text = .ok (url, .success) ∧
    literalText.ReadBack dottedQuads url :=
  parse_text dottedQuads_lawful literalText

end UrlText

end MaxNet
