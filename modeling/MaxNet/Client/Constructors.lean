import MaxNet.Client.Arguments
import MaxNet.NetUrl.Verdicts

namespace MaxNet

open NetUrl

variable {A : Type} {api : AddressApi A}

variable (api) in
def WebsocketClientIiwa.construct (args : List Atom) : Except UrlFault (Option (NetUrl (Endpoint A)) × List Post) := do
  let url ← netUrlFromAtoms api args
  let posts := [.cout ("address: ".toList ++ url.host)]
  let posts := posts ++ [.cout ("port: ".toList ++ (← std url.port))]
  return (if url.valid then some url else none, posts)

def HostFirst (url : NetUrl (Endpoint A)) : Prop := url.hostname = [] → isNumber url.portText = false

def NamesHost (text : List Char) : Prop :=
  ∀ portText, firstToken text = some (':' :: portText) → isNumber portText = false

theorem HostFirst.hasPort {url : NetUrl (Endpoint A)} (first : HostFirst url) (invalid : url.valid = false) :
    url.hasPort = .ok false := by
  have foreign : isNumber url.portText = false := by
    by_cases empty : url.hostname = []
    · exact first empty
    · simp [valid, empty] at invalid
      exact invalid.2
  simp [NetUrl.hasPort, foreign]

theorem hostFirst_parse {text : List Char} (names : NamesHost text) {url : NetUrl (Endpoint A)} {code : UrlCode}
    (returns : parse api text = .ok (url, code)) : HostFirst url := by
  intro empty
  have ends := parse_ends api text
  rw [returns] at ends
  cases ends with
  | missing other first => rfl
  | name first plain host port => rw [port]; rfl
  | badPort first plain number => exact number
  | port first plain number short host port =>
    rw [← host, empty, List.nil_append] at first
    rw [names _ first] at number
    cases number

theorem hostFirst_setPort (nothing : api.fromString [] = none) {url after : NetUrl (Endpoint A)} {port : List Char}
    {done : Bool} (first : HostFirst url) (set : url.setPort api port = (after, .ok done)) : HostFirst after := by
  unfold setPort at set
  by_cases number : isNumber port = true
  · rw [if_pos number] at set
    rcases recompute_cases api { url with portText := port } with ⟨_, address, known, made⟩ | ⟨_, x, thrown⟩
    · rw [made] at set
      obtain ⟨rfl, _⟩ := Prod.mk.inj set
      intro empty
      simp only [host] at known empty
      rw [empty, nothing] at known
      cases known
    · rw [thrown] at set
      cases set
  · rw [if_neg number] at set
    obtain ⟨rfl, _⟩ := Prod.mk.inj set
    exact first

theorem takeUrl_long (c : AtomConversions) (url : NetUrl (Endpoint A)) (n : Int64) :
    WebsocketClient.takeUrl api c url (.long n) = takeArgument api url (.long n) := by
  simp only [WebsocketClient.takeUrl, WebsocketClient.takeArgument, takeArgument, bind, Except.bind]
  cases std url.hasPort with
  | error x => rfl
  | ok has =>
    cases has with
    | true => rfl
    | false =>
      simp only [Bool.not_false, if_true]
      rcases url.setPort api (portArgument n) with ⟨after, x | done⟩
      · rfl
      · rfl

/-- What the turn of one constructor does, the other's does as well. -/
theorem takeArgument_of_takeUrl (c : AtomConversions) {url next : NetUrl (Endpoint A)} {arg : Atom}
    (taken : WebsocketClient.takeUrl api c url arg = .ok next) : takeArgument api url arg = .ok next := by
  cases arg with
  | sym s =>
    simp only [WebsocketClient.takeUrl, WebsocketClient.takeArgument, takeArgument] at taken ⊢
    by_cases valid : url.valid = true
    · simpa [valid, Except.map] using taken
    · simp only [valid, Bool.not_false, if_true] at taken ⊢
      cases parsed : parse api s.toList with
      | error x =>
        rw [parsed] at taken
        cases taken
      | ok result =>
        rcases result with ⟨tUrl, ec⟩
        rw [parsed] at taken
        simp only [bind, Except.bind] at taken ⊢
        cases has : std url.hasPort with
        | error x =>
          rw [has] at taken
          cases taken
        | ok both =>
          rw [has] at taken
          have same : next = tUrl ∧ (both = true → ∃ also, std tUrl.hasPort = .ok also) := by
            cases both with
            | false =>
              cases taken
              exact ⟨rfl, fun set => by cases set⟩
            | true =>
              cases other : std tUrl.hasPort with
              | error x =>
                simp [other, Except.map] at taken
              | ok also =>
                simp only [other, if_true, Except.map, pure, Except.pure, Except.ok.injEq] at taken
                exact ⟨taken.symm, fun _ => ⟨also, rfl⟩⟩
          obtain ⟨rfl, checked⟩ := same
          by_cases success : ec = .success
          · simp [success, pure, Except.pure]
          · cases both with
            | false => simp [success, pure, Except.pure]
            | true =>
              obtain ⟨also, other⟩ := checked rfl
              simp [success, other, pure, Except.pure]
  | float x => exact taken
  | long n =>
    rw [← takeUrl_long c url n]
    exact taken
  | other type => exact taken

/-- Without a port the turns do the same. -/
theorem takeUrl_eq (c : AtomConversions) {url : NetUrl (Endpoint A)} (first : HostFirst url) (arg : Atom) :
    WebsocketClient.takeUrl api c url arg = takeArgument api url arg := by
  cases arg with
  | sym s =>
    by_cases valid : url.valid = true
    · simp [WebsocketClient.takeUrl, WebsocketClient.takeArgument, takeArgument, valid, Except.map]
    · have invalid : url.valid = false := by simpa using valid
      have none := first.hasPort invalid
      rw [(WebsocketClient.takeUrl_reads api c).sym url s invalid none, (takeArgument_reads api).sym url s invalid none]
  | float x => rfl
  | long n => exact takeUrl_long c url n
  | other type => rfl

theorem hostFirst_takeArgument (nothing : api.fromString [] = none) {url next : NetUrl (Endpoint A)} {arg : Atom}
    (first : HostFirst url) (names : ∀ s, arg = .sym s → NamesHost s.toList)
    (taken : takeArgument api url arg = .ok next) : HostFirst next := by
  cases arg with
  | sym s =>
    by_cases valid : url.valid = true
    · simp only [takeArgument, valid, Bool.not_true, Bool.false_eq_true, if_false] at taken
      cases taken
      exact first
    · have invalid : url.valid = false := by simpa using valid
      rw [(takeArgument_reads api).sym url s invalid (first.hasPort invalid)] at taken
      cases parsed : parse api s.toList with
      | error x =>
        rw [parsed] at taken
        cases taken
      | ok result =>
        rw [parsed] at taken
        cases taken
        exact hostFirst_parse (names s rfl) parsed
  | float x =>
    cases taken
    exact first
  | long n =>
    simp only [takeArgument, bind, Except.bind] at taken
    split at taken
    · cases taken
    · split at taken
      · split at taken
        · rename_i after done set
          cases taken
          exact hostFirst_setPort nothing first set
        · cases taken
      · cases taken
        exact first
  | other type =>
    cases taken
    exact first

def openUrl (url : NetUrl (Endpoint A)) : Except UrlFault (Option (NetUrl (Endpoint A))) :=
  (std url.port).map fun _ => if url.valid then some url else none

theorem WebsocketClient.construct_fst (c : AtomConversions) (args : List Atom) :
    (WebsocketClient.construct api c args).map Prod.fst = (args.foldlM (WebsocketClient.takeUrl api c) {}).bind openUrl := by
  have loop := Lists.map_foldlM Prod.fst (WebsocketClient.map_takeArgument api c) args ({}, [])
  rw [← loop]
  unfold WebsocketClient.construct
  by_cases nonempty : 0 < args.length
  · rw [if_pos nonempty]
    cases args.foldlM (WebsocketClient.takeArgument api c) ({}, []) with
    | error x => rfl
    | ok state =>
      rcases state with ⟨url, posts⟩
      simp only [bind, Except.bind, Except.map, openUrl]
      cases std url.port with
      | error x => rfl
      | ok text =>
        by_cases valid : url.valid = true
        · simp [valid, pure, Except.pure]
        · simp [valid, pure, Except.pure]
  · obtain rfl : args = [] := List.eq_nil_of_length_eq_zero (by omega)
    rfl

theorem WebsocketClientIiwa.construct_fst (args : List Atom) :
    (WebsocketClientIiwa.construct api args).map Prod.fst = (args.foldlM (takeArgument api) {}).bind openUrl := by
  have loop : netUrlFromAtoms api args = args.foldlM (takeArgument api) {} := by
    unfold netUrlFromAtoms
    by_cases nonempty : 0 < args.length
    · rw [if_pos nonempty]
    · obtain rfl : args = [] := List.eq_nil_of_length_eq_zero (by omega)
      rfl
  unfold WebsocketClientIiwa.construct
  rw [loop]
  cases args.foldlM (takeArgument api) {} with
  | error x => rfl
  | ok url =>
    simp only [bind, Except.bind, openUrl]
    cases std url.port with
    | error x => rfl
    | ok text => rfl

theorem foldlM_takeArgument_of_takeUrl (c : AtomConversions) (args : List Atom) {url last : NetUrl (Endpoint A)}
    (taken : args.foldlM (WebsocketClient.takeUrl api c) url = .ok last) :
    args.foldlM (takeArgument api) url = .ok last := by
  induction args generalizing url with
  | nil => exact taken
  | cons arg args ih =>
    rw [List.foldlM_cons] at taken ⊢
    cases turn : WebsocketClient.takeUrl api c url arg with
    | error x =>
      rw [turn] at taken
      cases taken
    | ok next =>
      rw [turn] at taken
      rw [takeArgument_of_takeUrl c turn]
      exact ih taken

theorem foldlM_takeUrl_eq (nothing : api.fromString [] = none) (c : AtomConversions) (args : List Atom)
    (names : ∀ s, .sym s ∈ args → NamesHost s.toList) {url : NetUrl (Endpoint A)} (first : HostFirst url) :
    args.foldlM (WebsocketClient.takeUrl api c) url = args.foldlM (takeArgument api) url := by
  induction args generalizing url with
  | nil => rfl
  | cons arg args ih =>
    rw [List.foldlM_cons, List.foldlM_cons, takeUrl_eq c first arg]
    cases turn : takeArgument api url arg with
    | error x => rfl
    | ok next =>
      have own : ∀ s, arg = .sym s → NamesHost s.toList := fun s same => names s (same ▸ List.mem_cons_self)
      exact ih (fun s member => names s (List.mem_cons_of_mem arg member)) (hostFirst_takeArgument nothing first own turn)

variable (api) in
/-- Where the constructor of `websocketclient` opens a url or opens none, that of `websocketclient_iiwa` does the same
    with the same arguments. They also throw for the same arguments, unless some symbol is a port without a host. -/
theorem constructors_agree (nothing : api.fromString [] = none) (c : AtomConversions) (args : List Atom) :
    (∀ opened, (WebsocketClient.construct api c args).map Prod.fst = .ok opened →
        (WebsocketClientIiwa.construct api args).map Prod.fst = .ok opened) ∧
      ((∀ s, .sym s ∈ args → NamesHost s.toList) →
        (WebsocketClient.construct api c args).map Prod.fst = (WebsocketClientIiwa.construct api args).map Prod.fst) := by
  rw [WebsocketClient.construct_fst, WebsocketClientIiwa.construct_fst]
  constructor
  · intro opened done
    cases loop : args.foldlM (WebsocketClient.takeUrl api c) {} with
    | error x =>
      rw [loop] at done
      cases done
    | ok url =>
      rw [loop] at done
      rw [foldlM_takeArgument_of_takeUrl c args loop]
      exact done
  · intro names
    have fresh : HostFirst ({} : NetUrl (Endpoint A)) := fun _ => rfl
    rw [foldlM_takeUrl_eq nothing c args names fresh]

theorem constructors_agree_address :
    (WebsocketClientIiwa.construct dottedQuads [.sym (String.ofList addressText.text), .long 40000]).map Prod.fst =
      .ok (some ⟨addressText.host, ['4', '0', '0', '0', '0'], ['/', 'a'], [⟨16909060, 40000⟩]⟩) := by
  apply (constructors_agree dottedQuads (by decide) ownConversions _).1
  rfl

/-- A port without a host in front of an overlong one. -/
theorem constructors_disagree :
    (WebsocketClient.construct dottedQuads ownConversions [.sym ":80", .sym ":99999999999", .sym "h"]).map Prod.fst =
        .error (.thrown (.std .outOfRange)) ∧
      (WebsocketClientIiwa.construct dottedQuads [.sym ":80", .sym ":99999999999", .sym "h"]).map Prod.fst =
        .ok (some ⟨['h'], [], ['/'], []⟩) := by
  constructor
  · rfl
  · rfl

end MaxNet
