import BoundedStreams.Manager.Call
import BoundedStreams.Proofs.Traffic

/-! Everything a manager does to connections and records is one of a few deeds. Each operation of a
site is taken apart into deeds here; what the deeds keep, every operation keeps. -/

namespace BoundedStreams

/-- Something done to the connection `c` or to the record under `h`. -/
inductive Deed where
  /-- Nothing that concerns who holds which connection. -/
  | keep
  /-- The record changes, but for its socket. -/
  | tend (h : Handle)
  | enqueue (c : SocketId)
  /-- A pending connection leaves because its peer closed it. -/
  | withdraw (c : SocketId)
  /-- A pending connection is given up together with the listener. -/
  | shed (c : SocketId)
  /-- A new connection is aborted at once. -/
  | refuse (c : SocketId)
  | claim (h : Handle) (c : SocketId)
  | close (h : Handle) (c : SocketId)
  /-- An orphan is freed by its consumer. -/
  | dismiss (h : Handle)
  /-- A stream loses its socket and keeps its record. -/
  | orphan (h : Handle) (c : SocketId) (abortive : Bool)
  /-- A stream without interests loses its socket and with it its record. -/
  | free (h : Handle) (c : SocketId) (abortive : Bool)
  | enter
  | leave
  | flush

namespace Deed

def admitted : Deed → List SocketId
  | .enqueue c => [c]
  | _ => []

def cut {κ : Type} (m : Manager κ) : Deed → List SocketId
  | .shed c | .close _ c => if m.depth = 0 then [c] else []
  | .refuse c => [c]
  | .orphan _ c abortive | .free _ c abortive => if abortive then [c] else []
  | .leave => if m.depth - 1 = 0 then m.deferred else []
  | .flush => m.deferred
  | _ => []

def removed? : Deed → Option Handle
  | .close h _ | .dismiss h | .free h _ _ => some h
  | _ => none

end Deed

namespace Site

variable {κ σ : Type}

/-- Nobody holds anything else than before. Records of events, times, flags of pending connections,
totals and the listener may differ. -/
structure Alike (s s' : Site κ) : Prop where
  options : s'.manager.options = s.manager.options
  pending : s'.manager.backlog.sockets = s.manager.backlog.sockets
  streams : s'.manager.streams = s.manager.streams
  sockets : s'.manager.sockets = s.manager.sockets
  active : s'.manager.active = s.manager.active
  deferred : s'.manager.deferred = s.manager.deferred
  depth : s'.manager.depth = s.manager.depth
  traffic : s.network.SameTraffic s'.network

lemma Alike.of_network {s s' : Site κ} (hm : s'.manager = s.manager)
    (hn : s.network.SameTraffic s'.network) : s.Alike s' := by
  constructor <;> first | rw [hm] | exact hn

lemma Alike.of_eq {s s' : Site κ} (hm : s'.manager = s.manager) (hn : s'.network = s.network) :
    s.Alike s' := .of_network hm (hn ▸ .refl _)

lemma Alike.refl (s : Site κ) : s.Alike s := .of_eq rfl rfl

lemma Alike.trans {s₁ s₂ s₃ : Site κ} (h : s₁.Alike s₂) (h' : s₂.Alike s₃) : s₁.Alike s₃ where
  options := h'.options.trans h.options
  pending := h'.pending.trans h.pending
  streams := h'.streams.trans h.streams
  sockets := h'.sockets.trans h.sockets
  active := h'.active.trans h.active
  deferred := h'.deferred.trans h.deferred
  depth := h'.depth.trans h.depth
  traffic := h.traffic.trans h'.traffic

lemma Alike.abort {s s' : Site κ} (h : s.Alike s') (c : SocketId) :
    (s.abort c).Alike (s'.abort c) := by
  unfold Site.abort
  rw [h.depth]
  split
  · exact ⟨h.options, h.pending, h.streams, h.sockets, h.active, h.deferred, h.depth,
      h.traffic.close c⟩
  · exact ⟨h.options, h.pending, h.streams, h.sockets, h.active,
      congrArg (· ++ [c]) h.deferred, h.depth, h.traffic⟩

/-- The site after the stream under `h` has lost its socket `c`. -/
def detached (s : Site κ) (h : Handle) (c : SocketId) (abortive : Bool) : Site κ :=
  { s with
    network := if abortive then s.network.close c else s.network
    manager := { s.manager with
      streams := s.manager.streams.update h fun r => { r with socket := none }
      sockets := s.manager.sockets.erase c
      active := s.manager.active - 1 } }

/-- A deed, with what it asks of the site before it and what it leaves behind. -/
inductive Does : Deed → Site κ → Site κ → Prop where
  | keep {s s' : Site κ} (h : s.Alike s') : Does .keep s s'
  | tend {s s' : Site κ} (k : Handle) (f : Stream κ → Stream κ) (hf : ∀ r, (f r).socket = r.socket)
      (h : Alike (s.put (s.manager.updateStream k f)) s') : Does (.tend k) s s'
  | enqueue {s s' : Site κ} (c : SocketId) (hd : s.manager.depth = 0)
      (ha : s.manager.admission = .ok ())
      (h : Alike (s.put { s.manager with backlog := s.manager.backlog.push c s.now }) s') :
      Does (.enqueue c) s s'
  | withdraw {s s' : Site κ} (c : SocketId) (hc : s.manager.backlog.holds c = true)
      (h : Alike (s.put { s.manager with backlog := s.manager.backlog.withdraw c }) s') :
      Does (.withdraw c) s s'
  | shed {s s' : Site κ} (p : Pending) (b : Backlog) (hb : s.manager.backlog = p :: b)
      (h : Alike ((s.put { s.manager with backlog := b }).abort p.socket) s') :
      Does (.shed p.socket) s s'
  | refuse {s s' : Site κ} (c : SocketId) (hd : s.manager.depth = 0)
      (h : Alike { s with network := s.network.close c } s') : Does (.refuse c) s s'
  | claim {s s' : Site κ} (k : Handle) (a : Arena (Stream κ)) (p : Pending) (b : Backlog)
      (hb : s.manager.backlog = p :: b) (hc : s.manager.active < s.manager.options.capacity)
      (hi : s.manager.streams.insert (.claimed p.socket s.now) = (k, a))
      (h : Alike (s.put { s.manager with
        backlog := b
        streams := a
        sockets := s.manager.sockets.set p.socket k
        active := s.manager.active + 1 }) s') : Does (.claim k p.socket) s s'
  | close {s s' : Site κ} (k : Handle) (r : Stream κ) (c : SocketId)
      (hr : s.manager.streams.get? k = some r) (hc : r.socket = some c)
      (h : Alike ((s.put { s.manager with
        streams := s.manager.streams.remove k
        sockets := s.manager.sockets.erase c
        active := s.manager.active - 1 }).abort c) s') : Does (.close k c) s s'
  | dismiss {s s' : Site κ} (k : Handle) (r : Stream κ) (hr : s.manager.streams.get? k = some r)
      (hc : r.socket = none)
      (h : Alike (s.put { s.manager with streams := s.manager.streams.remove k }) s') :
      Does (.dismiss k) s s'
  | orphan {s s' : Site κ} (k : Handle) (r : Stream κ) (c : SocketId) (abortive : Bool)
      (hd : s.manager.depth = 0) (hr : s.manager.streams.get? k = some r) (hc : r.socket = some c)
      (hi : r.interests.isEmpty = false) (h : Alike (s.detached k c abortive) s') :
      Does (.orphan k c abortive) s s'
  | free {s s' : Site κ} (k : Handle) (r : Stream κ) (c : SocketId) (abortive : Bool)
      (hd : s.manager.depth = 0) (hr : s.manager.streams.get? k = some r) (hc : r.socket = some c)
      (hi : r.interests.isEmpty = true)
      (h : Alike ((s.detached k c abortive).put { (s.detached k c abortive).manager with
        streams := (s.detached k c abortive).manager.streams.remove k }) s') :
      Does (.free k c abortive) s s'
  | enter {s s' : Site κ} (h : s.enter.Alike s') : Does .enter s s'
  | leave {s s' : Site κ} (h : s.leave.Alike s') : Does .leave s s'
  | flush {s s' : Site κ} (h : s.flush.Alike s') : Does .flush s s'

inductive Did : List Deed → Site κ → Site κ → Prop where
  | nil (s : Site κ) : Did [] s s
  | cons {d : Deed} {ds : List Deed} {s s₁ s' : Site κ} (h : Does d s s₁) (hs : Did ds s₁ s') :
      Did (d :: ds) s s'

lemma Does.did {d : Deed} {s s' : Site κ} (h : Does d s s') : Did [d] s s' := .cons h (.nil s')

lemma Did.append {ds es : List Deed} {s s₁ s' : Site κ} (h : Did ds s s₁) (h' : Did es s₁ s') :
    Did (ds ++ es) s s' := by
  induction h with
  | nil _ => exact h'
  | cons hd _ ih => exact .cons hd (ih h')

lemma Does.trans_alike {d : Deed} {s s₁ s' : Site κ} (h : Does d s s₁) (h' : s₁.Alike s') :
    Does d s s' := by
  cases h with
  | keep h => exact .keep (h.trans h')
  | tend k f hf h => exact .tend k f hf (h.trans h')
  | enqueue c hd ha h => exact .enqueue c hd ha (h.trans h')
  | withdraw c hc h => exact .withdraw c hc (h.trans h')
  | shed p b hb h => exact .shed p b hb (h.trans h')
  | refuse c hd h => exact .refuse c hd (h.trans h')
  | claim k a p b hb hc hi h => exact .claim k a p b hb hc hi (h.trans h')
  | close k r c hr hc h => exact .close k r c hr hc (h.trans h')
  | dismiss k r hr hc h => exact .dismiss k r hr hc (h.trans h')
  | orphan k r c ab hd hr hc hi h => exact .orphan k r c ab hd hr hc hi (h.trans h')
  | free k r c ab hd hr hc hi h => exact .free k r c ab hd hr hc hi (h.trans h')
  | enter h => exact .enter (h.trans h')
  | leave h => exact .leave (h.trans h')
  | flush h => exact .flush (h.trans h')

lemma network_abort (s : Site κ) (c : SocketId) :
    (s.abort c).network = (if s.manager.depth = 0 then [c] else []).foldl Network.close s.network := by
  rw [abort]
  split <;> rfl

lemma Does.sameTraffic {d : Deed} {s s' : Site κ} (h : Does d s s') :
    ((d.cut s.manager).foldl Network.close s.network).SameTraffic s'.network := by
  cases h with
  | keep h | tend k f hf h | enqueue c hd ha h | withdraw c hc h | claim k a p b hb hc hi h
  | dismiss k r hr hc h | enter h | refuse c hd h | flush h => exact h.traffic
  | shed p b hb h | close k r c hr hc h =>
    have ht := h.traffic
    rw [network_abort] at ht
    exact ht
  | orphan k r c abortive hd hr hc hi h | free k r c abortive hd hr hc hi h =>
    have ht := h.traffic
    cases abortive <;> exact ht
  | leave h =>
    have ht := h.traffic
    unfold Site.leave at ht
    simp only [Deed.cut]
    dsimp only [put] at ht
    split at ht
    · next hd => rw [if_pos hd]; exact ht
    · next hd => rw [if_neg hd]; exact ht

lemma Did.traffic {ds : List Deed} {s s' : Site κ} (h : Did ds s s') :
    awaiting s'.network.queue = awaiting s.network.queue ∧ s.network.nextId ≤ s'.network.nextId := by
  induction h with
  | nil _ => exact ⟨rfl, Nat.le_refl _⟩
  | cons hd _ ih =>
    have ht := hd.sameTraffic
    have hq := congrArg awaiting ht.queue
    have hn := ht.nextId
    rw [Network.awaiting_foldl_close] at hq
    rw [Network.nextId_foldl_close] at hn
    exact ⟨ih.1.trans hq, Nat.le_trans hn ih.2⟩

lemma Does.options {d : Deed} {s s' : Site κ} (h : Does d s s') :
    s'.manager.options = s.manager.options := by
  have habort : ∀ (t : Site κ) (d : SocketId), (t.abort d).manager.options = t.manager.options := by
    intro t d
    rw [abort]
    split <;> rfl
  cases h with
  | keep h | tend k f hf h | enqueue c hd ha h | withdraw c hc h | refuse c hd h | claim k a p b hb hc hi h
  | dismiss k r hr hc h | orphan k r c ab hd hr hc hi h | free k r c ab hd hr hc hi h | enter h
  | flush h => exact h.options
  | shed p b hb h | close k r c hr hc h => exact h.options.trans (habort _ _)
  | leave h =>
    refine h.options.trans ?_
    rw [Site.leave]
    dsimp only
    split <;> rfl

lemma Did.options {ds : List Deed} {s s' : Site κ} (h : Did ds s s') :
    s'.manager.options = s.manager.options := by
  induction h with
  | nil s => rfl
  | cons hd _ ih => exact ih.trans hd.options

end Site

end BoundedStreams
