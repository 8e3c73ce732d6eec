import MaxNet.NetUrl.Parse

namespace MaxNet.NetUrl

variable {A : Type} {api : AddressApi A}

theorem not_fits_iff (url : NetUrl (Endpoint A)) :
    ¬ url.PortFits ↔ isNumber url.portText = true ∧ 2147483647 < digitsValue url.portText := by
  unfold PortFits
  rw [Classical.not_imp, Nat.not_le]

theorem port_unique {hostname portText hostname' portText' : List Char} (plain : ':' ∉ hostname)
    (plain' : ':' ∉ hostname') (same : hostname ++ ':' :: portText = hostname' ++ ':' :: portText') :
    hostname = hostname' ∧ portText = portText' := by
  have first := Tokenizer.idxOf?_append_cons plain portText
  rw [same, Tokenizer.idxOf?_append_cons plain' portText', Option.some.injEq] at first
  obtain ⟨left, right⟩ := List.append_inj same first.symm
  exact ⟨left, (List.cons.inj right).2⟩

def OverlongLiteral (api : AddressApi A) (hostname portText : List Char) : Prop :=
  (api.makeAddressV4 hostname).isSome = true ∧ isNumber portText = true ∧ 2147483647 < digitsValue portText

inductive Ends (api : AddressApi A) (text : List Char) : Except UrlFault (NetUrl (Endpoint A) × UrlCode) → Prop
  | blank (blank : ∀ c ∈ text, c = urlSeparatorChar) : Ends api text (.error .endDereference)
  | missing (other : ∃ c ∈ text, c ≠ urlSeparatorChar) (first : firstToken text = none) :
      Ends api text (.ok ({}, .fail))
  | name {token : List Char} {url : NetUrl (Endpoint A)} (first : firstToken text = some token)
      (plain : ':' ∉ token) (host : url.hostname = token) (port : url.portText = []) :
      Ends api text (.ok (url, .success))
  | badPort {hostname portText : List Char} (first : firstToken text = some (hostname ++ ':' :: portText))
      (plain : ':' ∉ hostname) (number : isNumber portText = false) :
      Ends api text (.ok ({ hostname, portText }, .fail))
  | overlong {hostname portText : List Char} {x : UrlFault}
      (first : firstToken text = some (hostname ++ ':' :: portText)) (plain : ':' ∉ hostname)
      (overlong : OverlongLiteral api hostname portText) : Ends api text (.error x)
  | refused {hostname : List Char} {x : UrlFault} (literal : (api.makeAddressV4 hostname).isSome = true)
      (refused : api.fromString hostname = none) : Ends api text (.error x)
  | port {hostname portText : List Char} {url : NetUrl (Endpoint A)}
      (first : firstToken text = some (hostname ++ ':' :: portText)) (plain : ':' ∉ hostname)
      (number : isNumber portText = true) (short : ¬ OverlongLiteral api hostname portText)
      (host : url.hostname = hostname) (port : url.portText = portText) : Ends api text (.ok (url, .success))

theorem ends_of_first {text token : List Char} (first : firstToken text = some token)
    (address : List (List Char)) : Ends api text (parseHost api token address) := by
  by_cases colon : ':' ∈ token
  · obtain ⟨hostname, portText, rfl, plain⟩ := List.eq_append_cons_of_mem colon
    rw [parseHost_port plain]
    by_cases number : isNumber portText = true
    · rw [if_pos number]
      rcases parsePath_cases api { hostname, portText } address rfl with
        ⟨ip, overlong | refused, x, thrown⟩ | ⟨short, url, done, host, port⟩
      · rw [thrown]
        exact .overlong first plain ⟨ip, (not_fits_iff _).mp overlong⟩
      · rw [thrown]
        exact .refused ip refused
      · rw [done]
        apply Ends.port first plain number ?_ host port
        exact fun overlong => short ⟨overlong.1, (not_fits_iff _).mpr overlong.2⟩
    · rw [if_neg number]
      apply Ends.badPort first plain
      simpa using number
  · rw [parseHost_plain colon]
    rcases parsePath_cases api { hostname := token } address rfl with
      ⟨ip, overlong | refused, x, thrown⟩ | ⟨_, url, done, host, port⟩
    · have number := ((not_fits_iff _).mp overlong).1
      cases number
    · rw [thrown]
      exact .refused ip refused
    · rw [done]
      exact .name first colon host port

variable (api) in
theorem parse_ends (text : List Char) : Ends api text (parse api text) := by
  by_cases blank : ∀ c ∈ text, c = urlSeparatorChar
  · rw [parse_of_blank blank]
    exact .blank blank
  · cases target : targetTokens text with
    | nil =>
      have other : ∃ c ∈ text, c ≠ urlSeparatorChar := by
        push Not at blank
        exact blank
      rw [parse_of_none blank target]
      apply Ends.missing other
      rw [firstToken, target]
      rfl
    | cons token address =>
      rw [parse_of_target target]
      apply ends_of_first
      rw [firstToken, target]
      rfl

theorem not_blank_of_first {text token : List Char} (first : firstToken text = some token) :
    ∃ c ∈ text, c ≠ urlSeparatorChar := by
  by_contra blank
  push Not at blank
  obtain ⟨address, target⟩ := firstToken_eq_some first
  rw [targetTokens, (Tokenizer.tokens_eq_nil_iff text).mpr blank] at target
  cases target

theorem forall_port_of_plain {P : List Char → List Char → Prop} {text token : List Char}
    (first : firstToken text = some token) (plain : ':' ∉ token) :
    ∀ hostname portText, firstToken text = some (hostname ++ ':' :: portText) → ':' ∉ hostname →
      P hostname portText := by
  intro hostname portText taken
  obtain rfl := Option.some.inj (first.symm.trans taken)
  simp at plain

theorem forall_port_iff {P : List Char → List Char → Prop} {text hostname portText : List Char}
    (first : firstToken text = some (hostname ++ ':' :: portText)) (plain : ':' ∉ hostname) :
    (∀ hostname portText, firstToken text = some (hostname ++ ':' :: portText) → ':' ∉ hostname →
      P hostname portText) ↔ P hostname portText := by
  constructor
  · exact fun all => all hostname portText first plain
  · intro holds other otherPort taken free
    obtain ⟨rfl, rfl⟩ := port_unique plain free (Option.some.inj (first.symm.trans taken))
    exact holds

/-- The constructor returns exactly when the text has a character besides the separators and is not an
    IPv4 literal with an overlong port. -/
theorem parse_returns_iff (lawful : api.Lawful) (text : List Char) :
    (∃ url code, parse api text = .ok (url, code)) ↔
      (∃ c ∈ text, c ≠ urlSeparatorChar) ∧ ∀ hostname portText,
        firstToken text = some (hostname ++ ':' :: portText) → ':' ∉ hostname →
          ¬ OverlongLiteral api hostname portText := by
  have ends := parse_ends api text
  generalize parse api text = result at ends
  cases ends with
  | blank blank =>
    apply iff_of_false (by simp)
    rintro ⟨⟨c, member, other⟩, _⟩
    exact other (blank c member)
  | missing other first =>
    apply iff_of_true ⟨_, _, rfl⟩
    apply And.intro other
    intro hostname portText taken
    rw [first] at taken
    cases taken
  | name first plain =>
    exact iff_of_true ⟨_, _, rfl⟩ ⟨not_blank_of_first first, forall_port_of_plain first plain⟩
  | badPort first plain number =>
    apply iff_of_true ⟨_, _, rfl⟩
    apply And.intro (not_blank_of_first first)
    rw [forall_port_iff first plain]
    intro overlong
    rw [overlong.2.1] at number
    cases number
  | overlong first plain overlong =>
    exact iff_of_false (by simp) fun both => both.2 _ _ first plain overlong
  | refused literal refused => exact absurd refused (lawful.accepted literal)
  | port first plain number short =>
    exact iff_of_true ⟨_, _, rfl⟩ ⟨not_blank_of_first first, (forall_port_iff first plain).mpr short⟩

def overlongLiteral : List Char :=
  ['1', '.', '2', '.', '3', '.', '4', ':', '9', '9', '9', '9', '9', '9', '9', '9', '9', '9', '9']

theorem parse_returns_iff_literal : (∃ url code, parse dottedQuads overlongLiteral = .ok (url, code)) ↔
    (∃ c ∈ overlongLiteral, c ≠ urlSeparatorChar) ∧ ∀ hostname portText,
      firstToken overlongLiteral = some (hostname ++ ':' :: portText) → ':' ∉ hostname →
        ¬ OverlongLiteral dottedQuads hostname portText :=
  parse_returns_iff dottedQuads_lawful overlongLiteral

theorem parse_not_total : parse dottedQuads [] = .error .endDereference ∧
    parse dottedQuads overlongLiteral = .error (.thrown (.std .outOfRange)) ∧
    ¬ ∀ text, ∃ url code, parse dottedQuads text = .ok (url, code) := by
  refine ⟨rfl, rfl, fun total => ?_⟩
  obtain ⟨url, code, returns⟩ := total []
  cases returns

/-- The code left in `ec` and `valid()` agree unless a colon stands at the end of the host token, or at
    its start and in front of a number. -/
theorem verdicts_agree_iff (text : List Char) (url : NetUrl (Endpoint A)) (code : UrlCode)
    (returns : parse api text = .ok (url, code)) :
    (code = .success ↔ url.valid = true) ↔ ∀ hostname portText,
      firstToken text = some (hostname ++ ':' :: portText) → ':' ∉ hostname →
        (hostname ≠ [] ∧ portText ≠ []) ∨ (hostname = [] ∧ isNumber portText = false) := by
  have ends := parse_ends api text
  rw [returns] at ends
  cases ends with
  | missing other first =>
    apply iff_of_true (iff_of_false (by simp) (by simp [valid]))
    intro hostname portText taken
    rw [first] at taken
    cases taken
  | name first plain host port =>
    have valid : url.valid = true := by simp [valid, host, port, token_ne_nil first]
    exact iff_of_true (iff_of_true rfl valid) (forall_port_of_plain first plain)
  | @badPort hostname portText first plain number =>
    rw [forall_port_iff first plain]
    by_cases empty : hostname = []
    · simp [valid, empty, number]
    · simp [valid, empty, number]
  | @port hostname portText url first plain number short host port =>
    subst host port
    have nonempty : url.portText ≠ [] := by
      intro empty
      rw [empty] at number
      cases number
    rw [forall_port_iff first plain]
    simp [valid, nonempty, number]

theorem verdicts_agree_iff_name :
    (UrlCode.success = .success ↔ NetUrl.valid (E := Endpoint Nat) ⟨['h'], ['9'], ['/'], []⟩ = true) ↔
      ∀ hostname portText, firstToken ['h', ':', '9'] = some (hostname ++ ':' :: portText) →
        ':' ∉ hostname → (hostname ≠ [] ∧ portText ≠ []) ∨ (hostname = [] ∧ isNumber portText = false) :=
  @verdicts_agree_iff Nat dottedQuads ['h', ':', '9'] ⟨['h'], ['9'], ['/'], []⟩ .success rfl

theorem verdicts_disagree :
    parse dottedQuads ['h', ':'] = .ok (⟨['h'], [], [], []⟩, .fail) ∧
      parse dottedQuads [':', '8', '0'] = .ok (⟨[], ['8', '0'], ['/'], []⟩, .success) ∧
      ¬ ∀ text url code, parse dottedQuads text = .ok (url, code) → (code = .success ↔ url.valid = true) := by
  refine ⟨rfl, rfl, fun agree => ?_⟩
  have same := agree [':', '8', '0'] ⟨[], ['8', '0'], ['/'], []⟩ .success rfl
  have valid := same.mp rfl
  cases valid

theorem not_number_of_colon (before after : List Char) : isNumber (before ++ ':' :: after) = false := by
  have digit : Char.isDigit ':' = false := by decide
  simp [isNumber, digit]

variable (api) in
theorem parse_port {text hostname portText : List Char}
    (first : firstToken text = some (hostname ++ ':' :: portText)) (plain : ':' ∉ hostname) :
    ∃ address, parse api text = if isNumber portText then parsePath api { hostname, portText } address
      else .ok ({ hostname, portText }, .fail) := by
  obtain ⟨address, target⟩ := firstToken_eq_some first
  refine ⟨address, ?_⟩
  rw [parse_of_target target, parseHost_port plain]

theorem port_denotes_iff (url : NetUrl (Endpoint A)) (number : isNumber url.portText = true) :
    (∃ used, url.port = .ok used ∧ digitsValue used = digitsValue url.portText) ↔
      digitsValue url.portText ≤ 65535 := by
  by_cases inRange : digitsValue url.portText ≤ 65535
  · have fits : url.PortFits := fun _ => by omega
    have used : url.port = .ok url.portText := by rw [port_eq_of_fits url fits, if_pos ⟨number, inRange⟩]
    exact iff_of_true ⟨url.portText, used, rfl⟩ inRange
  · apply iff_of_false ?_ inRange
    rintro ⟨used, taken, same⟩
    by_cases fits : url.PortFits
    · rw [port_eq_of_fits url fits, if_neg fun both => inRange both.2] at taken
      cases taken
      have std : digitsValue stdPort = 80 := by decide
      omega
    · rw [port, hasPort_of_overlong url fits] at taken
      cases taken

/-- Where the host token has a port, a successful construction uses it unless it is a number beyond 65535. -/
theorem accepted_port_used_iff (lawful : api.Lawful) (text hostname portText : List Char)
    (first : firstToken text = some (hostname ++ ':' :: portText)) :
    (∀ url, parse api text = .ok (url, .success) →
        isNumber portText = true ∧ ∃ used, url.port = .ok used ∧ digitsValue used = digitsValue portText) ↔
      (':' ∉ hostname → isNumber portText = true → 65535 < digitsValue portText →
        OverlongLiteral api hostname portText) := by
  by_cases colon : ':' ∈ hostname
  · apply iff_of_true ?_ (absurd colon)
    intro url returns
    obtain ⟨before, between, rfl, plain⟩ := List.eq_append_cons_of_mem colon
    rw [List.append_assoc, List.cons_append] at first
    obtain ⟨address, parsed⟩ := parse_port api first plain
    rw [parsed, not_number_of_colon] at returns
    simp at returns
  · obtain ⟨address, parsed⟩ := parse_port api first colon
    rw [imp_iff_right colon]
    by_cases number : isNumber portText = true
    · rw [imp_iff_right number]
      rw [if_pos number] at parsed
      rcases parsePath_cases api { hostname, portText } address rfl with
        ⟨ip, overlong | refused, x, thrown⟩ | ⟨short, url, done, host, port⟩
      · apply iff_of_true ?_ fun _ => ⟨ip, (not_fits_iff _).mp overlong⟩
        intro url returns
        rw [parsed, thrown] at returns
        cases returns
      · exact absurd refused (lawful.accepted ip)
      · simp only at host port
        subst host port
        have used := port_denotes_iff url number
        constructor
        · intro faithful beyond
          have within := used.mp (faithful url (parsed.trans done)).2
          omega
        · intro beyond other returns
          rw [parsed, done] at returns
          cases returns
          refine ⟨number, used.mpr ?_⟩
          by_contra outside
          have overlong := beyond (by omega)
          exact short ⟨overlong.1, (not_fits_iff _).mpr overlong.2⟩
    · apply iff_of_true ?_ fun yes => absurd yes number
      intro url returns
      rw [parsed, if_neg number] at returns
      cases returns

theorem accepted_port_used_iff_name :
    (∀ url, parse dottedQuads ['h', ':', '9'] = .ok (url, .success) →
        isNumber ['9'] = true ∧ ∃ used, url.port = .ok used ∧ digitsValue used = digitsValue ['9']) ↔
      (':' ∉ ['h'] → isNumber ['9'] = true → 65535 < digitsValue ['9'] →
        OverlongLiteral dottedQuads ['h'] ['9']) :=
  accepted_port_used_iff dottedQuads_lawful ['h', ':', '9'] ['h'] ['9'] rfl

theorem accepted_port_ignored : ∃ url,
    parse dottedQuads ['h', ':', '7', '0', '0', '0', '0'] = .ok (url, .success) ∧
      url.port = .ok ['8', '0'] ∧
      ¬ ∃ used, url.port = .ok used ∧ digitsValue used = digitsValue ['7', '0', '0', '0', '0'] := by
  refine ⟨⟨['h'], ['7', '0', '0', '0', '0'], ['/'], []⟩, rfl, rfl, ?_⟩
  rintro ⟨used, taken, same⟩
  obtain rfl := Except.ok.inj taken
  revert same
  decide

end MaxNet.NetUrl
