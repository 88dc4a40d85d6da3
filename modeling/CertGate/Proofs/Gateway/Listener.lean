import Mathlib.Data.List.Induction
import Mathlib.Data.List.Perm.Basic
import CertGate.Gateway.Listener

namespace CertGate.Gateway

variable {Stream Peer : Type}

namespace Connection

def numbers (cs : List (Connection Stream Peer)) : List Nat :=
  cs.map (·.number)

theorem mem_numbers {cs : List (Connection Stream Peer)} {n : Nat} :
    n ∈ numbers cs ↔ ∃ c ∈ cs, c.number = n := List.mem_map

variable {n : Nat} {c : Connection Stream Peer} {cs others : List (Connection Stream Peer)}

@[simp] theorem numbers_append (cs ds : List (Connection Stream Peer)) :
    numbers (cs ++ ds) = numbers cs ++ numbers ds := List.map_append

@[simp] theorem numbers_cons (c : Connection Stream Peer) (cs : List (Connection Stream Peer)) :
    numbers (c :: cs) = c.number :: numbers cs := rfl

@[simp] theorem numbers_nil : numbers ([] : List (Connection Stream Peer)) = [] := rfl

theorem perm_numbers {ds : List (Connection Stream Peer)} (h : cs.Perm ds) :
    (numbers cs).Perm (numbers ds) :=
  h.map _

theorem isSome_take? : (take? n cs).isSome ↔ n ∈ numbers cs := by
  simp [take?, mem_numbers]

theorem number_of_take? (h : take? n cs = some (c, others)) : c.number = n := by
  obtain ⟨d, hd, heq⟩ := Option.map_eq_some_iff.1 h
  cases heq
  simpa using List.find?_some hd

theorem perm_of_take? (h : take? n cs = some (c, others)) : cs.Perm (c :: others) := by
  obtain ⟨d, hd, heq⟩ := Option.map_eq_some_iff.1 h
  cases heq
  obtain ⟨hc, before, after, rfl, hbefore⟩ := List.find?_eq_some_iff_append.1 hd
  have herase : (c :: after).eraseP (·.number == n) = after := List.eraseP_cons_of_pos hc
  rw [List.eraseP_append_right _ (fun b hb ↦ by simpa using hbefore b hb), herase]
  exact List.perm_middle

theorem exists_take?_of_mem (hc : c ∈ cs) (hcs : ∀ d ∈ cs, d.number = c.number → d = c) :
    ∃ others, take? c.number cs = some (c, others) := by
  have hsome := isSome_take?.2 (mem_numbers.2 ⟨c, hc, rfl⟩)
  obtain ⟨⟨d, others⟩, h⟩ := Option.isSome_iff_exists.1 hsome
  have hd : d ∈ cs := (perm_of_take? h).mem_iff.2 List.mem_cons_self
  have heq : d = c := hcs d hd (number_of_take? h)
  exact ⟨others, heq ▸ h⟩

theorem take?_filter {p : Connection Stream Peer → Bool} (hp : ∀ c, c.number = n → p c = true)
    (cs : List (Connection Stream Peer)) :
    take? n (cs.filter p) = (take? n cs).map fun (c, others) ↦ (c, others.filter p) := by
  have hand : (fun c : Connection Stream Peer ↦ decide (p c = true ∧ (c.number == n) = true)) =
      fun c ↦ c.number == n := by
    funext c
    have hc := hp c
    grind
  have hand' : (fun c : Connection Stream Peer ↦ (c.number == n) && p c) = fun c ↦ c.number == n := by
    funext c
    have hc := hp c
    grind
  simp only [take?, List.find?_filter, List.eraseP_filter, hand, hand', Option.map_map]
  rfl

end Connection

namespace Listener

open Connection

variable {l m : Listener Stream Peer} {e : Event Stream Peer} {events : List (Event Stream Peer)}

namespace Event

def arrivals : Event Stream Peer → List (Stream × Peer)
  | .accept stream peer => [(stream, peer)]
  | _ => []

def completions : Event Stream Peer → List Nat
  | .complete n => [n]
  | _ => []

def failures : Event Stream Peer → List Nat
  | .fail n | .timeOut n => [n]
  | _ => []

def sends : Event Stream Peer → List Nat
  | .send n => [n]
  | _ => []

/-- The event is none in the handshake of one of these connections. -/
def Spares (stalled : List Nat) (e : Event Stream Peer) : Prop :=
  ∀ n ∈ stalled, n ∉ e.completions ++ e.failures

/-- What has to be so for an event to happen to a listener that is not dropped. -/
def Enabled (l : Listener Stream Peer) : Event Stream Peer → Prop
  | .accept _ _ | .acceptError _ => l.pausing = false
  | .resume => l.pausing = true
  | .complete n | .fail n | .timeOut n => n ∈ numbers l.handshaking
  | .send n => n ∈ numbers l.waiting ∧ l.channel.length < channelLimit
  | .handOver => l.channel ≠ []
  | .drop => True

end Event

def secured (l : Listener Stream Peer) : List (Connection Stream Peer) :=
  l.waiting ++ l.channel ++ l.handed

def without (stalled : List Nat) (l : Listener Stream Peer) : Listener Stream Peer :=
  { l with handshaking := l.handshaking.filter (·.number ∉ stalled) }

/-- How a listener stands to what has happened to it, connections going by their numbers. -/
structure Accounts (events : List (Event Stream Peer)) (l : Listener Stream Peer) : Prop where
  arrived : l.arrived = (events.flatMap (·.arrivals)).length
  /-- Every connection is in one place only, unless its handshake has failed. -/
  placed : (numbers l.handshaking ++ events.flatMap (·.failures) ++ numbers l.secured).Perm
    (List.range l.arrived)
  completed : (numbers l.secured).Perm (events.flatMap (·.completions))
  /-- Connections leave the channel in the order in which they have been sent. -/
  sent : numbers (l.handed ++ l.channel) = events.flatMap (·.sends)
  own : ∀ c ∈ l.handshaking ++ l.secured,
    (events.flatMap (·.arrivals))[c.number]? = some (c.stream, c.peer)
  bounded : l.channel.length ≤ channelLimit

section Step

variable {n : Nat}

theorem step?_accept {stream : Stream} {peer : Peer} :
    l.step? (.accept stream peer) = some m ↔ l.accepting = true ∧ { l with
      arrived := l.arrived + 1, handshaking := l.handshaking ++ [⟨l.arrived, stream, peer⟩] } = m := by
  simp [step?]

theorem step?_complete : l.step? (.complete n) = some m ↔
    ∃ c others, take? n l.handshaking = some (c, others) ∧
      { l with handshaking := others, waiting := l.waiting ++ [c] } = m := by
  simp [step?]

theorem step?_fail : l.step? (.fail n) = some m ↔
    ∃ c others, take? n l.handshaking = some (c, others) ∧ { l with handshaking := others } = m := by
  simp [step?]

theorem step?_send (hl : l.dropped = false) : l.step? (.send n) = some m ↔
    ∃ c others, take? n l.waiting = some (c, others) ∧ l.channel.length < channelLimit ∧
      { l with waiting := others, channel := l.channel ++ [c] } = m := by
  simp [step?, Option.bind_eq_some_iff, hl, hasRoom]

theorem step?_handOver (hl : l.dropped = false) : l.step? .handOver = some m ↔
    ∃ c rest, l.channel = c :: rest ∧ { l with channel := rest, handed := l.handed ++ [c] } = m := by
  cases hc : l.channel <;> simp [step?, hl, hc]

theorem step?_acceptError {fault : AcceptFault} : l.step? (.acceptError fault) = some m ↔
    l.accepting = true ∧ { l with pausing := !fault.ofClient } = m := by
  simp [step?]

theorem step?_resume : l.step? .resume = some m ↔
    (l.pausing = true ∧ l.dropped = false) ∧ { l with pausing := false } = m := by
  simp [step?]

theorem step?_drop (hl : l.dropped = false) :
    l.step? .drop = some { l with dropped := true, channel := [] } := by
  simp [step?, hl]

theorem step?_of_dropped (hl : l.dropped = true) (hs : l.step? e = some m) :
    m.dropped = true ∧ m.arrived = l.arrived ∧ m.handed = l.handed := by
  cases e with
  | accept | acceptError | resume | handOver | drop => simp [step?, accepting, hl] at hs
  | complete n =>
    obtain ⟨c, others, -, rfl⟩ := step?_complete.1 hs
    exact ⟨hl, rfl, rfl⟩
  | fail n | timeOut n =>
    obtain ⟨c, others, -, rfl⟩ := step?_fail.1 hs
    exact ⟨hl, rfl, rfl⟩
  | send n =>
    simp only [step?, hl, if_true, Option.bind_eq_some_iff, Option.some.injEq] at hs
    obtain ⟨c, -, rfl⟩ := hs
    exact ⟨rfl, rfl, rfl⟩

theorem dropped_of_step? (hs : l.step? e = some m) (hm : m.dropped = false) : l.dropped = false := by
  by_contra hl
  rw [Bool.not_eq_false] at hl
  exact Bool.false_ne_true (hm.symm.trans (step?_of_dropped hl hs).1)

theorem isSome_step? (hl : l.dropped = false) (e : Event Stream Peer) :
    (l.step? e).isSome ↔ e.Enabled l := by
  cases e with
  | accept | acceptError | resume | drop => simp [step?, Event.Enabled, accepting, hl]
  | complete | fail | timeOut => simp [step?, Event.Enabled, isSome_take?]
  | send n =>
    rw [Event.Enabled, ← isSome_take?, Option.isSome_iff_exists, Option.isSome_iff_exists]
    simp only [step?_send hl, Prod.exists]
    grind
  | handOver => cases hc : l.channel <;> simp [step?, Event.Enabled, hl, hc]

end Step

theorem run?_append (l : Listener Stream Peer) (events later : List (Event Stream Peer)) :
    l.run? (events ++ later) = (l.run? events).bind (·.run? later) := List.foldlM_append

theorem run?_append_singleton :
    l.run? (events ++ [e]) = some m ↔ ∃ k, l.run? events = some k ∧ k.step? e = some m := by
  simp [run?, Option.bind_eq_some_iff]

namespace Accounts

theorem nil : Accounts [] ({} : Listener Stream Peer) where
  arrived := rfl
  placed := .nil
  completed := .nil
  sent := rfl
  own _ hc := nomatch hc
  bounded := Nat.zero_le _

theorem nodup (h : Accounts events l) :
    (numbers l.handshaking ++ events.flatMap (·.failures) ++ numbers l.secured).Nodup :=
  h.placed.nodup_iff.2 List.nodup_range

theorem number_lt (h : Accounts events l) {n : Nat} (hn : n ∈ numbers l.handshaking) : n < l.arrived := by
  refine List.mem_range.1 (h.placed.mem_iff.1 ?_)
  simp [hn]

theorem eq_of_number (h : Accounts events l) {c d : Connection Stream Peer}
    (hc : c ∈ l.handshaking ++ l.secured) (hd : d ∈ l.handshaking ++ l.secured)
    (hcd : d.number = c.number) : d = c := by
  have heq := (h.own d hd).symm.trans (hcd ▸ h.own c hc)
  cases c
  cases d
  simp_all

theorem accept (h : Accounts events l) (stream : Stream) (peer : Peer) :
    Accounts (events ++ [.accept stream peer]) { l with
      arrived := l.arrived + 1, handshaking := l.handshaking ++ [⟨l.arrived, stream, peer⟩] } where
  arrived := by simp [h.arrived, Event.arrivals]
  placed := by
    have hplaced := h.placed
    simp only [List.range_succ, secured, numbers_append, numbers_cons, numbers_nil, List.flatMap_append,
      List.flatMap_singleton, Event.failures, List.append_nil] at hplaced ⊢
    grind
  completed := by simpa [secured, Event.completions] using h.completed
  sent := by simpa [Event.sends] using h.sent
  own c hc := by
    have hc : c ∈ l.handshaking ++ l.secured ∨ c = ⟨l.arrived, stream, peer⟩ := by
      simp only [secured, List.mem_append, List.mem_singleton] at hc ⊢
      tauto
    rw [List.flatMap_append, List.flatMap_singleton]
    -- The number of an earlier connection is in range before the new one is appended.
    cases hc with
    | inl hc =>
      have hown := h.own c hc
      rw [List.getElem?_append_left (List.getElem?_eq_some_iff.1 hown).1, hown]
    | inr hc => simp [hc, h.arrived, Event.arrivals]
  bounded := h.bounded

/-- What a change of places comes to: which connections have gone, which have completed their handshake
and which have been sent. -/
theorem moved (h : Accounts events l) {gone new sent : List (Connection Stream Peer)}
    (harrived : m.arrived = l.arrived) (harrivals : e.arrivals = [])
    (hgone : (m.handshaking ++ gone ++ m.secured).Perm (l.handshaking ++ l.secured))
    (hfailures : e.failures = numbers gone)
    (hnew : m.secured.Perm (l.secured ++ new)) (hcompletions : e.completions = numbers new)
    (hsent : m.handed ++ m.channel = l.handed ++ l.channel ++ sent) (hsends : e.sends = numbers sent)
    (hbounded : m.channel.length ≤ channelLimit) : Accounts (events ++ [e]) m where
  arrived := by simp [harrived, harrivals, h.arrived]
  placed := by
    have hplaced := h.placed
    have hnumbers := perm_numbers hgone
    rw [List.flatMap_append, List.flatMap_singleton, hfailures, harrived]
    refine .trans ?_ hplaced
    rw [List.perm_iff_count] at hnumbers ⊢
    intro n
    have hn := hnumbers n
    simp only [numbers_append, List.count_append] at hn ⊢
    omega
  completed := by
    rw [List.flatMap_append, List.flatMap_singleton, hcompletions]
    exact (perm_numbers hnew).trans (by simpa using h.completed.append_right (numbers new))
  sent := by simp [hsends, hsent, ← h.sent]
  own c hc := by
    rw [List.flatMap_append, List.flatMap_singleton, harrivals, List.append_nil]
    refine h.own c (hgone.mem_iff.1 ?_)
    grind
  bounded := hbounded

variable {n : Nat} {c : Connection Stream Peer} {others : List (Connection Stream Peer)}

theorem complete (h : Accounts events l) (hc : take? n l.handshaking = some (c, others)) :
    Accounts (events ++ [.complete n])
      { l with handshaking := others, waiting := l.waiting ++ [c] } := by
  classical
  have hperm := perm_of_take? hc
  have hgone : (others ++ [] ++ (l.waiting ++ [c] ++ l.channel ++ l.handed)).Perm
      (l.handshaking ++ (l.waiting ++ l.channel ++ l.handed)) := by grind
  have hnew : (l.waiting ++ [c] ++ l.channel ++ l.handed).Perm
      (l.waiting ++ l.channel ++ l.handed ++ [c]) := by grind
  exact h.moved rfl rfl hgone rfl hnew (by simp [Event.completions, number_of_take? hc])
    (List.append_nil _).symm rfl h.bounded

theorem fail (h : Accounts events l) (hc : take? n l.handshaking = some (c, others))
    (he : e = .fail n ∨ e = .timeOut n) : Accounts (events ++ [e]) { l with handshaking := others } := by
  classical
  have hperm := perm_of_take? hc
  have hn := number_of_take? hc
  have hgone : (others ++ [c] ++ l.secured).Perm (l.handshaking ++ l.secured) := by grind
  have hnew : l.secured.Perm (l.secured ++ []) := by simp
  obtain rfl | rfl := he <;>
    exact h.moved rfl rfl hgone (by simp [Event.failures, hn]) hnew rfl (List.append_nil _).symm rfl
      h.bounded

theorem send (h : Accounts events l) (hc : take? n l.waiting = some (c, others))
    (hroom : l.channel.length < channelLimit) :
    Accounts (events ++ [.send n]) { l with waiting := others, channel := l.channel ++ [c] } := by
  classical
  have hperm := perm_of_take? hc
  have hnew : (others ++ (l.channel ++ [c]) ++ l.handed).Perm
      (l.waiting ++ l.channel ++ l.handed ++ []) := by grind
  have hgone : (l.handshaking ++ [] ++ (others ++ (l.channel ++ [c]) ++ l.handed)).Perm
      (l.handshaking ++ (l.waiting ++ l.channel ++ l.handed)) := by grind
  exact h.moved rfl rfl hgone rfl hnew rfl (List.append_assoc ..).symm
    (by simp [Event.sends, number_of_take? hc]) (by simpa [Nat.succ_le_iff] using hroom)

theorem handOver (h : Accounts events l) {rest : List (Connection Stream Peer)}
    (hc : l.channel = c :: rest) :
    Accounts (events ++ [.handOver]) { l with channel := rest, handed := l.handed ++ [c] } := by
  classical
  have hnew : (l.waiting ++ rest ++ (l.handed ++ [c])).Perm
      (l.waiting ++ l.channel ++ l.handed ++ []) := by grind
  have hgone : (l.handshaking ++ [] ++ (l.waiting ++ rest ++ (l.handed ++ [c]))).Perm
      (l.handshaking ++ (l.waiting ++ l.channel ++ l.handed)) := by grind
  have hsent : l.handed ++ [c] ++ rest = l.handed ++ l.channel ++ [] := by simp [hc]
  have hbounded : rest.length ≤ channelLimit := Nat.le_of_succ_le (by simpa [hc] using h.bounded)
  exact h.moved rfl rfl hgone rfl hnew rfl hsent rfl hbounded

theorem pause (h : Accounts events l) (pausing : Bool)
    (he : e = .resume ∨ ∃ fault, e = .acceptError fault) :
    Accounts (events ++ [e]) { l with pausing := pausing } := by
  have hgone : (l.handshaking ++ [] ++ l.secured).Perm (l.handshaking ++ l.secured) := by simp
  have hnew : l.secured.Perm (l.secured ++ []) := by simp
  obtain rfl | ⟨fault, rfl⟩ := he <;>
    exact h.moved rfl rfl hgone rfl hnew rfl (List.append_nil _).symm rfl h.bounded

theorem step (h : Accounts events l) (hs : l.step? e = some m) (hm : m.dropped = false) :
    Accounts (events ++ [e]) m := by
  have hl : l.dropped = false := dropped_of_step? hs hm
  cases e with
  | accept stream peer =>
    obtain ⟨-, rfl⟩ := step?_accept.1 hs
    exact h.accept stream peer
  | acceptError fault =>
    obtain ⟨-, rfl⟩ := step?_acceptError.1 hs
    exact h.pause _ (.inr ⟨fault, rfl⟩)
  | resume =>
    obtain ⟨-, rfl⟩ := step?_resume.1 hs
    exact h.pause false (.inl rfl)
  | complete n =>
    obtain ⟨c, others, hc, rfl⟩ := step?_complete.1 hs
    exact h.complete hc
  | fail n =>
    obtain ⟨c, others, hc, rfl⟩ := step?_fail.1 hs
    exact h.fail hc (.inl rfl)
  | timeOut n =>
    obtain ⟨c, others, hc, rfl⟩ := step?_fail.1 hs
    exact h.fail hc (.inr rfl)
  | send n =>
    obtain ⟨c, others, hc, hroom, rfl⟩ := (step?_send hl).1 hs
    exact h.send hc hroom
  | handOver =>
    obtain ⟨c, rest, hc, rfl⟩ := (step?_handOver hl).1 hs
    exact h.handOver hc
  | drop =>
    cases (step?_drop hl).symm.trans hs
    cases hm

theorem of_run? (hrun : run? {} events = some l) (hl : l.dropped = false) : Accounts events l := by
  induction events using List.reverseRecOn generalizing l with
  | nil =>
    cases hrun
    exact nil
  | append_singleton events e ih =>
    obtain ⟨k, hk, hs⟩ := run?_append_singleton.1 hrun
    exact (ih hk (dropped_of_step? hs hl)).step hs hl

end Accounts

section Stalled

variable {stalled : List Nat}

/-- Connections in their handshake change nothing of what happens to the others. -/
theorem step?_without (hnew : l.arrived ∉ stalled) (he : e.Spares stalled) :
    (l.without stalled).step? e = (l.step? e).map (·.without stalled) := by
  have htake {n : Nat} (hn : n ∉ stalled) :=
    take?_filter (n := n) (p := (·.number ∉ stalled)) (fun c hc ↦ by simpa [hc] using hn) l.handshaking
  cases e with
  | accept | acceptError | resume | drop =>
    cases hp : l.pausing <;> cases hd : l.dropped <;> simp [step?, accepting, without, hp, hd, hnew]
  | complete n | fail n | timeOut n =>
    have hn : n ∉ stalled := fun hn ↦ he n hn (by simp [Event.completions, Event.failures])
    simp only [step?, without, htake hn, Option.map_map]
    rfl
  | send n =>
    cases hw : take? n l.waiting <;> cases hd : l.dropped <;> cases hr : l.hasRoom <;>
      simp_all [step?, hasRoom, without]
  | handOver =>
    cases hd : l.dropped <;> cases hc : l.channel <;> simp [step?, without, hd, hc]

theorem stalled_of_step? (hl : l.dropped = false) (he : e.Spares stalled) (hs : l.step? e = some m)
    (hstalled : stalled ⊆ numbers l.handshaking) : stalled ⊆ numbers m.handshaking := by
  have htake {n : Nat} {c : Connection Stream Peer} {others : List (Connection Stream Peer)}
      (hc : take? n l.handshaking = some (c, others)) (hn : n ∉ stalled) : stalled ⊆ numbers others := by
    intro k hk
    have hmem := (perm_numbers (perm_of_take? hc)).mem_iff.1 (hstalled hk)
    have hne : k ≠ c.number := fun heq ↦ hn (number_of_take? hc ▸ heq ▸ hk)
    simpa [hne] using hmem
  cases e with
  | accept =>
    obtain ⟨-, rfl⟩ := step?_accept.1 hs
    exact List.Subset.trans hstalled (by simp)
  | complete n =>
    obtain ⟨c, others, hc, rfl⟩ := step?_complete.1 hs
    exact htake hc (fun hn ↦ he n hn (by simp [Event.completions]))
  | fail n | timeOut n =>
    obtain ⟨c, others, hc, rfl⟩ := step?_fail.1 hs
    exact htake hc (fun hn ↦ he n hn (by simp [Event.failures]))
  | send n =>
    obtain ⟨c, others, -, -, rfl⟩ := (step?_send hl).1 hs
    exact hstalled
  | handOver =>
    obtain ⟨c, rest, -, rfl⟩ := (step?_handOver hl).1 hs
    exact hstalled
  | acceptError =>
    obtain ⟨-, rfl⟩ := step?_acceptError.1 hs
    exact hstalled
  | resume =>
    obtain ⟨-, rfl⟩ := step?_resume.1 hs
    exact hstalled
  | drop =>
    cases (step?_drop hl).symm.trans hs
    exact hstalled

theorem run?_drain (hl : l.dropped = false) : l.run? (List.replicate l.channel.length .handOver) =
    some { l with channel := [], handed := l.handed ++ l.channel } := by
  obtain ⟨arrived, pausing, dropped, handshaking, waiting, channel, handed⟩ := l
  cases hl
  induction channel generalizing handed with
  | nil => simp [run?]
  | cons c rest ih =>
    have hrest := ih (handed ++ [c])
    simp only [run?, List.length_cons, List.replicate_succ, List.foldlM_cons, step?] at hrest ⊢
    simpa using hrest

theorem stalled_of_run? (hl : m.dropped = false) (he : ∀ e ∈ events, e.Spares stalled)
    (hrun : l.run? events = some m) (hstalled : stalled ⊆ numbers l.handshaking) :
    stalled ⊆ numbers m.handshaking := by
  induction events using List.reverseRecOn generalizing m with
  | nil =>
    cases hrun
    exact hstalled
  | append_singleton events e ih =>
    obtain ⟨k, hk, hs⟩ := run?_append_singleton.1 hrun
    have hkd := dropped_of_step? hs hl
    exact stalled_of_step? hkd (he e (by simp)) hs (ih hkd (fun e he' ↦ he e (by simp [he'])) hk)

/-- The connection can be handed over whether or not those of the stalled ones go on. -/
def Reaches (l : Listener Stream Peer) (stalled : List Nat) (c : Connection Stream Peer) : Prop :=
  ∃ later m, (∀ e ∈ later, e.Spares stalled) ∧ l.run? later = some m ∧ m.dropped = false ∧ c ∈ m.handed

theorem spares_handOver (stalled : List Nat) : (.handOver : Event Stream Peer).Spares stalled := by
  simp [Event.Spares, Event.completions, Event.failures]

theorem spares_send (stalled : List Nat) (n : Nat) : (.send n : Event Stream Peer).Spares stalled := by
  simp [Event.Spares, Event.completions, Event.failures]

theorem reaches_of_mem_channel (hl : l.dropped = false) (stalled : List Nat) {c : Connection Stream Peer}
    (hc : c ∈ l.channel) : l.Reaches stalled c := by
  refine ⟨_, _, ?_, run?_drain hl, hl, by simp [hc]⟩
  intro e he
  exact List.eq_of_mem_replicate he ▸ spares_handOver stalled

theorem reaches_of_mem_waiting (h : Accounts events l) (hl : l.dropped = false) (stalled : List Nat)
    {c : Connection Stream Peer} (hc : c ∈ l.waiting) : l.Reaches stalled c := by
  obtain ⟨others, htake⟩ := exists_take?_of_mem hc fun d hd ↦
    h.eq_of_number (by simp [secured, hc]) (by simp [secured, hd])
  -- The channel is emptied first, so that there is room in it.
  refine ⟨.replicate l.channel.length .handOver ++ [.send c.number, .handOver],
    { l with waiting := others, channel := [], handed := l.handed ++ l.channel ++ [c] }, ?_, ?_, hl, by simp⟩
  · intro e he
    simp only [List.mem_append, List.mem_replicate, List.mem_cons, List.not_mem_nil, or_false] at he
    obtain ⟨-, rfl⟩ | rfl | rfl := he
    · exact spares_handOver stalled
    · exact spares_send stalled c.number
    · exact spares_handOver stalled
  · rw [run?_append, run?_drain hl]
    simp [run?, step?, htake, hl, hasRoom, channelLimit]

theorem reaches_of_mem_handshaking (h : Accounts events l) (hl : l.dropped = false)
    {c : Connection Stream Peer} (hc : c ∈ l.handshaking) (hstalled : c.number ∉ stalled) :
    l.Reaches stalled c := by
  obtain ⟨others, htake⟩ := exists_take?_of_mem hc fun d hd ↦
    h.eq_of_number (by simp [hc]) (by simp [hd])
  have hs := step?_complete.2 ⟨c, others, htake, rfl⟩
  obtain ⟨later, m, hlater, hrun, hm, hmem⟩ :=
    reaches_of_mem_waiting (h.complete htake) hl stalled (c := c) (by simp)
  refine ⟨.complete c.number :: later, m, ?_, ?_, hm, hmem⟩
  · refine List.forall_mem_cons.2 ⟨fun n hn hmem ↦ hstalled ?_, hlater⟩
    obtain rfl : n = c.number := by simpa [Event.completions, Event.failures] using hmem
    exact hn
  · simpa [run?, hs] using hrun

end Stalled

/-- However connections arrive, fail, complete their handshake and are taken, each of those that have
completed it is in one place with its own stream and peer, is handed over once and in the order of the
channel, and waits for none that stays in its handshake. -/
theorem delivers_past_stalled (hrun : run? {} events = some l) (hl : l.dropped = false) :
    Accounts events l ∧ (numbers l.secured).Nodup ∧
    (∀ n ∈ events.flatMap (·.failures), n ∉ numbers l.secured) ∧
    (∀ e, (l.step? e).isSome ↔ e.Enabled l) ∧
    ∀ stalled ⊆ numbers l.handshaking,
      (∀ e, e.Spares stalled → (l.without stalled).step? e = (l.step? e).map (·.without stalled)) ∧
      ∀ c ∈ l.handshaking ++ l.waiting ++ l.channel, c.number ∉ stalled →
        ∃ later m, (∀ e ∈ later, e.Spares stalled) ∧ l.run? later = some m ∧ c ∈ m.handed ∧
          stalled ⊆ numbers m.handshaking := by
  have h : Accounts events l := .of_run? hrun hl
  obtain ⟨-, hsecured, hdisjoint⟩ := List.nodup_append.1 h.nodup
  refine ⟨h, hsecured, ?_, isSome_step? hl, fun stalled hstalled ↦ ⟨fun e ↦ ?_, ?_⟩⟩
  · intro n hn hmem
    exact hdisjoint n (List.mem_append_right _ hn) n hmem rfl
  · exact step?_without fun hmem ↦ Nat.lt_irrefl _ (h.number_lt (hstalled hmem))
  · intro c hc hout
    have hreach : l.Reaches stalled c := by
      simp only [List.mem_append] at hc
      obtain (hc | hc) | hc := hc
      · exact reaches_of_mem_handshaking h hl hc hout
      · exact reaches_of_mem_waiting h hl stalled hc
      · exact reaches_of_mem_channel hl stalled hc
    obtain ⟨later, m, hlater, hrun, hm, hmem⟩ := hreach
    exact ⟨later, m, hlater, hrun, hmem, stalled_of_run? hm hlater hrun hstalled⟩

def silentThenPrompt : List (Event String Nat) :=
  [.accept "silent" 4001, .acceptError (.other "too many open files"), .resume, .accept "prompt" 4002,
    .complete 1, .send 1]

theorem delivers_past_silent : ∃ l, run? {} silentThenPrompt = some l ∧ l.dropped = false ∧
    ∃ later m, l.run? later = some m ∧ ⟨1, "prompt", 4002⟩ ∈ m.handed ∧ 0 ∈ numbers m.handshaking := by
  have hrun : run? {} silentThenPrompt = some {
    arrived := 2, handshaking := [⟨0, "silent", 4001⟩], channel := [⟨1, "prompt", 4002⟩] } := rfl
  obtain ⟨-, -, -, -, hstalled⟩ := delivers_past_stalled hrun rfl
  obtain ⟨later, m, -, hlater, hmem, hsilent⟩ :=
    (hstalled [0] (by simp)).2 ⟨1, "prompt", 4002⟩ (by simp) (by simp)
  exact ⟨_, hrun, rfl, later, m, hlater, hmem, hsilent (by simp)⟩

end Listener

end CertGate.Gateway
