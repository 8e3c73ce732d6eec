import MaxNet.Session.Model

namespace MaxNet

def Action.Writing {M : Type} : Action M → Prop
  | write _ | asyncWrite _ | onWriteDone _ | deallocate _ => True
  | _ => False

namespace Session

variable {E M α : Type}

def openings (s : Session E M) : Nat := s.connects.length + s.handshakes + s.accepts

theorem openings_connect (url : NetUrl E) (s : Session E M) :
    (s.connects ++ [url]).length + s.handshakes + s.accepts = s.openings + 1 := by
  rw [List.length_append, List.length_singleton, openings]
  omega

theorem openings_connected [DecidableEq E] {url : NetUrl E} {s : Session E M} (member : url ∈ s.connects) :
    0 < s.openings ∧ (s.connects.erase url).length + s.handshakes + s.accepts = s.openings - 1 := by
  have positive := List.length_pos_of_mem member
  rw [List.length_erase_of_mem member, openings]
  omega

structure WriteBlind (f : Session E M → α) : Prop where
  log : ∀ (a : Action M) (s : Session E M), a.Writing → f (s.log a) = f s
  msgQueue : ∀ (queue : List M) (s : Session E M), f { s with msgQueue := queue } = f s
  writeStarts : ∀ (starts : List M) (s : Session E M), f { s with writeStarts := starts } = f s
  writes : ∀ (writes : List M) (s : Session E M), f { s with writes := writes } = f s
  stats : ∀ (stats : SessionStats) (s : Session E M), f { s with stats := stats } = f s

namespace WriteBlind

variable {f : Session E M → α} (blind : WriteBlind f)

include blind

theorem performWrite (inIoThread : Bool) (m : M) (s : Session E M) : f (s.performWrite inIoThread m) = f s := by
  cases inIoThread with
  | true => exact (blind.log (.asyncWrite m) _ True.intro).trans (blind.writes _ s)
  | false => exact blind.writeStarts _ s

theorem release (m : M) (s : Session E M) : f (s.release m) = f s := by
  unfold Session.release
  split
  · exact blind.log (.onWriteDone m) s True.intro
  · exact blind.log (.deallocate m) s True.intro

theorem releaseAll (ms : List M) (s : Session E M) : f (Session.releaseAll ms s) = f s := by
  induction ms generalizing s with
  | nil => rfl
  | cons m rest ih => rw [Session.releaseAll, ih, blind.msgQueue, blind.release]

theorem write (inIoThread : Bool) (m : M) (s : Session E M) : f (s.write inIoThread m) = f s := by
  let t := { s with msgQueue := s.msgQueue ++ [m] }.log (.write m)
  have logged : f t = f s := (blind.log (.write m) _ True.intro).trans (blind.msgQueue _ s)
  change f (if t.msgQueue.length < 2 then t.performWrite inIoThread m else t) = f s
  split
  · rw [blind.performWrite, logged]
  · exact logged

theorem writeCompleteHandler (bytes : Nat) (m : M) (s : Session E M) :
    f (s.writeCompleteHandler bytes m) = f s := by
  have counted : f (s.countOutbound bytes) = f s := blind.stats _ s
  have popped (rest : List M) :
      f (({ s.countOutbound bytes with msgQueue := rest } : Session E M).release m) = f s := by
    rw [blind.release, blind.msgQueue, counted]
  unfold Session.writeCompleteHandler
  simp only
  split
  · exact counted
  · split
    · exact popped []
    · split
      · rw [blind.performWrite, popped]
      · rw [blind.releaseAll, popped]

end WriteBlind

end Session

end MaxNet
