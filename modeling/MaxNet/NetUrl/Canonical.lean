import MaxNet.NetUrl.Verdicts

namespace MaxNet.NetUrl

section

variable {E : Type}

def equals (url other : NetUrl E) : Bool :=
  other.hostname == url.hostname && other.portText == url.portText && other.pathText == url.pathText

def hostToken (url : NetUrl E) : List Char :=
  if url.portText = [] then url.hostname else url.hostname ++ ':' :: url.portText

def canonical (url : NetUrl E) : List Char := url.hostToken ++ url.pathText

theorem equals_iff (url other : NetUrl E) : url.equals other = true ↔
    other.hostname = url.hostname ∧ other.portText = url.portText ∧ other.pathText = url.pathText := by
  simp [equals, and_assoc]

theorem canonical_of_equals {url other : NetUrl E} (equal : url.equals other = true) :
    other.canonical = url.canonical := by
  obtain ⟨host, port, path⟩ := (equals_iff url other).mp equal
  rw [canonical, canonical, hostToken, hostToken, host, port, path]

end

variable {A : Type} {api : AddressApi A}

theorem parsePath_ok {url result : NetUrl (Endpoint A)} {address : List (List Char)} {code : UrlCode}
    (fresh : url.pathText = []) (done : parsePath api url address = .ok (result, code)) :
    result.hostname = url.hostname ∧ result.portText = url.portText ∧ result.pathText = pathOf address := by
  rw [parsePath_eq url address fresh] at done
  split at done
  · split at done
    · cases done
      exact ⟨rfl, rfl, rfl⟩
    · cases done
  · cases done
    exact ⟨rfl, rfl, rfl⟩

structure Accepted (api : AddressApi A) (text : List Char) (url : NetUrl (Endpoint A)) : Prop where
  target : ∃ address, targetTokens text = url.hostToken :: address ∧ url.pathText = pathOf address
  proper : url.hostToken ≠ urlPrefix

theorem accepted_of_parse {text : List Char} {url : NetUrl (Endpoint A)}
    (accepted : parse api text = .ok (url, .success)) : Accepted api text url := by
  by_cases blank : ∀ c ∈ text, c = urlSeparatorChar
  · rw [parse_of_blank blank] at accepted
    cases accepted
  · cases target : targetTokens text with
    | nil =>
      rw [parse_of_none blank target] at accepted
      cases accepted
    | cons token address =>
      rw [parse_of_target target] at accepted
      by_cases colon : ':' ∈ token
      · obtain ⟨hostname, portText, rfl, plain⟩ := List.eq_append_cons_of_mem colon
        rw [parseHost_port plain] at accepted
        by_cases number : isNumber portText = true
        · rw [if_pos number] at accepted
          obtain ⟨host, port, path⟩ := parsePath_ok rfl accepted
          simp only at host port
          have nonempty : portText ≠ [] := by
            rintro rfl
            cases number
          have same : url.hostToken = hostname ++ ':' :: portText := by
            rw [hostToken, host, port, if_neg nonempty]
          refine ⟨⟨address, by rw [target, same], path⟩, ?_⟩
          rintro (scheme : url.hostToken = ['w', 's'] ++ ':' :: [])
          exact nonempty (port_unique plain (by decide) (same.symm.trans scheme)).2
        · rw [if_neg number] at accepted
          cases accepted
      · rw [parseHost_plain colon] at accepted
        obtain ⟨host, port, path⟩ := parsePath_ok rfl accepted
        have same : url.hostToken = token := by rw [hostToken, host, port, if_pos rfl]
        refine ⟨⟨address, by rw [target, same], path⟩, ?_⟩
        rintro (scheme : url.hostToken = urlPrefix)
        rw [same] at scheme
        rw [scheme] at colon
        exact colon (by decide)

/-- The path in front of which the host token stands. -/
theorem tokens_pathOf {token : List Char} {address : List (List Char)} (nonempty : token ≠ [])
    (free : urlSeparatorChar ∉ token) (clean : ∀ piece ∈ address, piece ≠ [] ∧ urlSeparatorChar ∉ piece) :
    Tokenizer.tokens urlSeparatorChar (token ++ pathOf address) = token :: address := by
  by_cases root : address = []
  · subst root
    have whole := Tokenizer.tokens_append_spaced nonempty free [] 1 (by simp)
    simpa [pathOf, Tokenizer.spaced] using whole
  · have pieces : ∀ piece ∈ address.map (fun piece => (0, piece)), piece.2 ≠ [] ∧ urlSeparatorChar ∉ piece.2 :=
      List.forall_mem_map.mpr clean
    have whole := Tokenizer.tokens_append_spaced nonempty free _ 0 pieces
    have path : pathOf address = Tokenizer.spaced urlSeparatorChar (address.map fun piece => (0, piece)) := by
      simp [pathOf, root, Tokenizer.spaced, List.flatMap_map]
    rw [path]
    simpa [List.map_map, Function.comp_def] using whole

/-- The canonical text has the tokens of the text that was accepted. -/
theorem targetTokens_canonical {text : List Char} {url : NetUrl (Endpoint A)} (accepted : Accepted api text url) :
    targetTokens url.canonical = targetTokens text := by
  obtain ⟨address, target, path⟩ := accepted.target
  have clean : ∀ piece ∈ url.hostToken :: address, piece ≠ [] ∧ urlSeparatorChar ∉ piece := by
    intro piece member
    have token := mem_tokens_of_target (target ▸ member)
    exact ⟨Tokenizer.ne_nil_of_mem_tokens token, Tokenizer.not_mem_of_mem_tokens token⟩
  obtain ⟨⟨nonempty, free⟩, rest⟩ := List.forall_mem_cons.mp clean
  rw [target, targetTokens, canonical, path, tokens_pathOf nonempty free rest]
  simp only
  rw [if_neg accepted.proper]

theorem parse_of_same_tokens {text other : List Char} {url : NetUrl (Endpoint A)} (some : targetTokens text ≠ [])
    (same : targetTokens other = targetTokens text) (accepted : parse api text = .ok (url, .success)) :
    parse api other = .ok (url, .success) := by
  cases target : targetTokens text with
  | nil => exact absurd target some
  | cons token address =>
    rw [parse_of_target (same.trans target)]
    rwa [parse_of_target target] at accepted

/-- An accepted url, written as a text, is read as the same object again. Two accepted texts give equal urls, which
    then have the same endpoints too, exactly if they have the same host token and the same path segments. -/
theorem accepted_canonical {text other : List Char} {url url' : NetUrl (Endpoint A)}
    (accepted : parse api text = .ok (url, .success)) (accepted' : parse api other = .ok (url', .success)) :
    parse api url.canonical = .ok (url, .success) ∧ (url.equals url' = true ↔ url = url') ∧
      (url = url' ↔ targetTokens text = targetTokens other) := by
  have read := accepted_of_parse accepted
  have read' := accepted_of_parse accepted'
  have tokens : targetTokens text ≠ [] := by
    obtain ⟨address, target, _⟩ := read.target
    simp [target]
  have tokens' : targetTokens other ≠ [] := by
    obtain ⟨address, target, _⟩ := read'.target
    simp [target]
  have again := parse_of_same_tokens tokens (targetTokens_canonical read) accepted
  have again' := parse_of_same_tokens tokens' (targetTokens_canonical read') accepted'
  refine ⟨again, ?_, ?_⟩
  · constructor
    · intro equal
      rw [canonical_of_equals equal, again] at again'
      exact congrArg Prod.fst (Except.ok.inj again')
    · rintro rfl
      exact (equals_iff url url).mpr ⟨rfl, rfl, rfl⟩
  · constructor
    · rintro rfl
      rw [← targetTokens_canonical read, ← targetTokens_canonical read']
    · intro same
      rw [parse_of_same_tokens tokens same.symm accepted] at accepted'
      exact congrArg Prod.fst (Except.ok.inj accepted')

theorem accepted_canonical_slashes : ∃ url : NetUrl (Endpoint Nat),
    parse dottedQuads "ws://h:9//a/b/".toList = .ok (url, .success) ∧ url.canonical = "h:9/a/b".toList ∧
      parse dottedQuads url.canonical = .ok (url, .success) := by
  have accepted : parse dottedQuads "ws://h:9//a/b/".toList = .ok (⟨['h'], ['9'], "/a/b".toList, []⟩, .success) := by
    decide +kernel
  exact ⟨_, accepted, by decide +kernel, (accepted_canonical accepted accepted).1⟩

end MaxNet.NetUrl
