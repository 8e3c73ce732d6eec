import MaxNet.NetUrl.Parse

namespace MaxNet.NetUrl

variable {A : Type} (api : AddressApi A)

/-- Each setter returns the object it leaves behind, and its result or the exception that escapes. -/
def recompute (url : NetUrl (Endpoint A)) : NetUrl (Endpoint A) × Except UrlException Unit :=
  match url.ownEndpoints api with
  | .ok endpointSeq => ({ url with endpointSeq }, .ok ())
  | .error x => (url, .error x)

def setHost (hostname : List Char) (url : NetUrl (Endpoint A)) : NetUrl (Endpoint A) × Except UrlException Unit :=
  recompute api { url with hostname }

def setPort (port : List Char) (url : NetUrl (Endpoint A)) : NetUrl (Endpoint A) × Except UrlException Bool :=
  if isNumber port then
    match recompute api { url with portText := port } with
    | (url, .ok ()) => (url, .ok true)
    | (url, .error x) => (url, .error x)
  else (url, .ok false)

structure Targets (hostname : List Char) (portText : Except StdError (List Char))
    (before after : NetUrl (Endpoint A)) : Prop where
  host : after.host = hostname
  port : after.port = portText
  path : after.path = before.path
  endpoints : ∃ address text, ∃ number : UInt16, api.fromString hostname = some address ∧
    portText = .ok text ∧ number.toNat = digitsValue text ∧ after.endpoints = [⟨address, number⟩]

/-- The call completes with the new host and port or leaves everything as it was, and the object is not
    left resolved to a host or port that it no longer has. -/
structure AllOrNothing (hostname : List Char) (portText : Except StdError (List Char)) (completed : Prop)
    (before after : NetUrl (Endpoint A)) : Prop where
  completes : completed → Targets api hostname portText before after
  fails : ¬ completed → after = before
  fresh : after.isResolved = true →
    (after.host = before.host ∧ after.portText = before.portText) ∨ Targets api hostname portText before after

def HostAllOrNothing (hostname : List Char) (url : NetUrl (Endpoint A)) : Prop :=
  AllOrNothing api hostname url.port ((url.setHost api hostname).2 = .ok ()) url (url.setHost api hostname).1

def PortAllOrNothing (port : List Char) (url : NetUrl (Endpoint A)) : Prop :=
  AllOrNothing api url.host (.ok port) ((url.setPort api port).2 = .ok true) url (url.setPort api port).1

variable {api}

theorem allOrNothing_of_targets {host : List Char} {port : Except StdError (List Char)} {completed : Prop}
    {before after : NetUrl (Endpoint A)} (targets : Targets api host port before after) (done : completed) :
    AllOrNothing api host port completed before after :=
  ⟨fun _ => targets, fun failed => absurd done failed, fun _ => Or.inr targets⟩

theorem allOrNothing_of_failed {host : List Char} {port : Except StdError (List Char)} {completed : Prop}
    {before after : NetUrl (Endpoint A)} (failed : ¬ completed) :
    AllOrNothing api host port completed before after ↔ after = before := by
  constructor
  · exact fun both => both.fails failed
  · rintro rfl
    exact ⟨fun done => absurd done failed, fun _ => rfl, fun _ => Or.inl ⟨rfl, rfl⟩⟩

variable (api) in
theorem recompute_cases (url : NetUrl (Endpoint A)) :
    (url.PortFits ∧ ∃ address, api.fromString url.host = some address ∧ recompute api url =
      ({ url with endpointSeq := [⟨address, UInt16.ofNat url.portNumber⟩] }, .ok ())) ∨
    ((¬ url.PortFits ∨ api.fromString url.host = none) ∧ ∃ x, recompute api url = (url, .error x)) := by
  unfold recompute
  by_cases fits : url.PortFits
  · cases known : api.fromString url.host with
    | none =>
      rw [ownEndpoints_of_unknown url fits known]
      exact Or.inr ⟨Or.inr rfl, _, rfl⟩
    | some address =>
      rw [ownEndpoints_of_address url fits known]
      exact Or.inl ⟨fits, address, rfl, rfl⟩
  · rw [ownEndpoints_of_overlong url fits]
    exact Or.inr ⟨Or.inl fits, _, rfl⟩

theorem targets_of_recompute {before url : NetUrl (Endpoint A)} (fits : url.PortFits) {address : A}
    (known : api.fromString url.host = some address) (path : url.path = before.path) :
    Targets api url.host url.port before
      { url with endpointSeq := [⟨address, UInt16.ofNat url.portNumber⟩] } := by
  obtain ⟨text, port, value⟩ := port_portNumber url fits
  exact
    { host := rfl
      port := rfl
      path := path
      endpoints := ⟨address, text, _, known, port, (portNumber_toNat url).trans value, rfl⟩ }

theorem hostAllOrNothing_iff (hostname : List Char) (url : NetUrl (Endpoint A)) :
    HostAllOrNothing api hostname url ↔
      hostname = url.host ∨ (url.PortFits ∧ ∃ address, api.fromString hostname = some address) := by
  unfold HostAllOrNothing setHost
  rcases recompute_cases api { url with hostname } with ⟨fits, address, known, done⟩ | ⟨reason, x, thrown⟩
  · apply iff_of_true ?_ (Or.inr ⟨fits, address, known⟩)
    rw [done]
    apply allOrNothing_of_targets ?_ rfl
    exact targets_of_recompute fits known rfl
  · have failed : ¬ (recompute api { url with hostname }).2 = .ok () := by simp [thrown]
    rw [allOrNothing_of_failed failed, thrown]
    constructor
    · intro same
      exact Or.inl (congrArg NetUrl.hostname same)
    · rintro (rfl | ⟨fits, address, known⟩)
      · rfl
      · rcases reason with overlong | unknown
        · exact absurd fits overlong
        · simp only [host] at unknown
          rw [known] at unknown
          cases unknown

variable (api) in
theorem setPort_of_number {port : List Char} (number : isNumber port = true) (url : NetUrl (Endpoint A)) :
    (url.setPort api port).1 = (recompute api { url with portText := port }).1 ∧
      ((url.setPort api port).2 = .ok true ↔ (recompute api { url with portText := port }).2 = .ok ()) := by
  unfold setPort
  rw [if_pos number]
  rcases recompute api { url with portText := port } with ⟨after, x | done⟩
  · simp
  · simp

theorem port_of_number {url : NetUrl (Endpoint A)} (number : isNumber url.portText = true) (fits : url.PortFits) :
    url.port = .ok url.portText ↔ digitsValue url.portText ≤ 65535 := by
  rw [port_eq_of_fits url fits, Except.ok.injEq]
  by_cases inRange : digitsValue url.portText ≤ 65535
  · exact iff_of_true (if_pos ⟨number, inRange⟩) inRange
  · apply iff_of_false ?_ inRange
    intro same
    rw [if_neg fun both => inRange both.2] at same
    rw [← same] at inRange
    exact inRange (by decide)

/-- Where the endpoints could be made, the port is used unless it is beyond 65535. -/
theorem portAllOrNothing_of_known {port : List Char} {url : NetUrl (Endpoint A)} (number : isNumber port = true)
    (fits : ({ url with portText := port } : NetUrl (Endpoint A)).PortFits) {address : A}
    (known : api.fromString url.host = some address)
    (done : recompute api { url with portText := port } = ({ url with
      portText := port
      endpointSeq := [⟨address, UInt16.ofNat ({ url with portText := port } : NetUrl (Endpoint A)).portNumber⟩] },
      .ok ())) :
    PortAllOrNothing api port url ↔ digitsValue port ≤ 65535 := by
  obtain ⟨state, result⟩ := setPort_of_number api number url
  have completed : (url.setPort api port).2 = .ok true := result.mpr (by rw [done])
  have targets : Targets api url.host _ url _ := targets_of_recompute fits known rfl
  have used := port_of_number number fits
  unfold PortAllOrNothing
  rw [state, done]
  constructor
  · intro all
    exact used.mp (all.completes completed).port
  · intro inRange
    rw [used.mpr inRange] at targets
    exact allOrNothing_of_targets targets completed

/-- An exception leaves the new port behind. -/
theorem portAllOrNothing_of_thrown {port : List Char} {url : NetUrl (Endpoint A)} (number : isNumber port = true)
    {x : UrlException}
    (thrown : recompute api { url with portText := port } = ({ url with portText := port }, .error x)) :
    PortAllOrNothing api port url ↔ port = url.portText := by
  obtain ⟨state, result⟩ := setPort_of_number api number url
  have failed : ¬ (url.setPort api port).2 = .ok true := by
    rw [result, thrown]
    simp
  unfold PortAllOrNothing
  rw [state, allOrNothing_of_failed failed, thrown]
  constructor
  · intro same
    exact congrArg NetUrl.portText same
  · rintro rfl
    rfl

theorem portAllOrNothing_iff (port : List Char) (url : NetUrl (Endpoint A)) :
    PortAllOrNothing api port url ↔ isNumber port = false ∨
      (digitsValue port ≤ 65535 ∧ ∃ address, api.fromString url.host = some address) ∨
      (port = url.portText ∧ (2147483647 < digitsValue port ∨ api.fromString url.host = none)) := by
  by_cases number : isNumber port = true
  · have foreign : ¬ isNumber port = false := by simp [number]
    rw [or_iff_right foreign]
    rcases recompute_cases api { url with portText := port } with
      ⟨fits, address, known, done⟩ | ⟨reason, x, thrown⟩
    · have sound : ¬ (2147483647 < digitsValue port ∨ api.fromString url.host = none) := by
        rintro (overlong | unknown)
        · exact absurd (fits number) (Nat.not_le.mpr overlong)
        · simp only [host] at known unknown
          rw [known] at unknown
          cases unknown
      rw [portAllOrNothing_of_known number fits known done, or_iff_left (sound ∘ And.right)]
      exact (and_iff_left ⟨address, known⟩).symm
    · have broken : 2147483647 < digitsValue port ∨ api.fromString url.host = none := by
        rcases reason with overlong | unknown
        · simp only [PortFits, Classical.not_imp, Nat.not_le] at overlong
          exact Or.inl overlong.2
        · exact Or.inr unknown
      have never : ¬ (digitsValue port ≤ 65535 ∧ ∃ address, api.fromString url.host = some address) := by
        rintro ⟨small, address, known⟩
        rcases broken with overlong | unknown
        · omega
        · rw [known] at unknown
          cases unknown
      rw [portAllOrNothing_of_thrown number thrown, or_iff_right never]
      exact (and_iff_left broken).symm
  · have refused : url.setPort api port = (url, .ok false) := by rw [setPort, if_neg number]
    apply iff_of_true ?_ (Or.inl (by simpa using number))
    apply (allOrNothing_of_failed ?_).mpr
    · rw [refused]
    · rw [refused]
      simp

/-- Exactly when the setters are all or nothing, for every value of the object. -/
theorem setters_all_or_nothing_iff (url : NetUrl (Endpoint A)) (text : List Char) :
    (PortAllOrNothing api text url ↔ isNumber text = false ∨
        (digitsValue text ≤ 65535 ∧ ∃ address, api.fromString url.host = some address) ∨
        (text = url.portText ∧ (2147483647 < digitsValue text ∨ api.fromString url.host = none))) ∧
      (HostAllOrNothing api text url ↔
        text = url.host ∨ (url.PortFits ∧ ∃ address, api.fromString text = some address)) :=
  ⟨portAllOrNothing_iff text url, hostAllOrNothing_iff text url⟩

def resolvedName : NetUrl (Endpoint Nat) := ⟨['h'], [], ['/'], [⟨7, 80⟩]⟩

/-- The port changes, the endpoints of the old one stay. -/
theorem set_port_leaves_stale :
    (∃ url, parse dottedQuads ['h'] = .ok (url, .success) ∧ url.setResolverResults [⟨7, 80⟩] = resolvedName) ∧
      resolvedName.setPort dottedQuads ['8', '1'] = (⟨['h'], ['8', '1'], ['/'], [⟨7, 80⟩]⟩, .error .badAddress) ∧
      ¬ PortAllOrNothing dottedQuads ['8', '1'] resolvedName := by
  refine ⟨⟨⟨['h'], [], ['/'], []⟩, rfl, rfl⟩, rfl, fun all => ?_⟩
  have same := all.fails (by decide)
  have port := congrArg NetUrl.portText same
  revert port
  decide

end MaxNet.NetUrl
