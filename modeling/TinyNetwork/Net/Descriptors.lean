import TinyNetwork.Net.Operations
import TinyNetwork.Net.Release
import TinyNetwork.Poller.Reuse

/-!
# The descriptors of a server

The descriptor of a connection is closed with the `TcpConnection` object, when the last
`TcpConnectionPtr` has gone.  The kernel may give it to the next connection that is accepted.  The
pollers keep their channels by descriptor, so a channel must be out of its poller by then.

## Main results

* `Does.held` : a connection that has lost its last reference never gets one again.
* `lifetimes` : that holds all along a run, and connections that are referenced have different
  descriptors.
* `pollers_exact` : the calls that have been made in a run bring the poller of a loop to a state in
  which its maps hold the channels of the connections on the loop, and nothing else.
-/

namespace TinyNetwork

namespace ServerLoops

open TcpConnection Lifecycle

variable {L : Type*}

/-! ### References -/

section Held

variable [DecidableEq L] {s s' : State L} {a : Act L} {l : L} {lp : Loop} {i conn : ℕ}
  {erased : Set ℕ} {f : Functor} {gone : Option TcpServer.Task} {closed : Option ℕ}

omit [DecidableEq L] in
theorem State.Held.of_holding (hf : f ∈ (s.loops l).holding) (hholds : f.holds = some i) :
    s.Held i := .inr ⟨l, f, hf, hholds⟩

/-- A thread that goes on by itself makes no reference. -/
theorem Goes.held (h : Goes gone closed (s.loops l) lp) (hheld : (s.setLoop l lp).Held i) :
    s.Held i := by
  refine hheld.imp id ?_
  rintro ⟨l', f, hf, hholds⟩
  rw [State.loops_setLoop] at hf
  split_ifs at hf with heq
  · rcases h.holding f hf with hf | rfl
    · exact ⟨l, f, hf, hholds⟩
    · cases hholds
  · exact ⟨l', f, hf, hholds⟩

/-- A push makes a reference to the connection of the functor. -/
theorem State.Held.of_queueInLoop (h : (s.queueInLoop l f).Held i) :
    s.Held i ∨ f.holds = some i := by
  rcases h with hentry | ⟨l', f', hf', hholds⟩
  · exact .inl (.inl hentry)
  · rw [State.loops_queueInLoop] at hf'
    split_ifs at hf' with heq
    · have hmem : f' ∈ (s.loops l).holding ∨ f' = f := by
        simpa [Loop.holding, Loop.queue, or_assoc] using hf'
      rcases hmem with hmem | rfl
      · exact .inl (.of_holding hmem hholds)
      · exact .inr hholds
    · exact .inl (.inr ⟨l', f', hf', hholds⟩)

/-- A function of a connection makes references to this one. -/
theorem State.Held.of_perform {p : TcpConnection × List Effect}
    (h : (s.perform l conn p).Held i) : s.Held i ∨ i = conn ∧ queued conn p.2 ≠ [] := by
  rcases h with hentry | ⟨l', f, hf, hholds⟩
  · exact .inl (.inl hentry)
  · rw [State.loops_perform] at hf
    split_ifs at hf with heq
    · have hmem : f ∈ (s.loops l).holding ∨ f ∈ queued conn p.2 := by
        simpa [Loop.holding, Loop.queue, or_assoc] using hf
      rcases hmem with hmem | hmem
      · exact .inl (.of_holding hmem hholds)
      · refine .inr ⟨?_, List.ne_nil_of_mem hmem⟩
        obtain ⟨effect, -, heq⟩ := List.mem_filterMap.1 hmem
        cases effect with
        | queueInLoop task =>
          cases heq
          cases task <;> cases hholds <;> rfl
        | _ => cases heq
    · exact .inl (.inr ⟨l', f, hf, hholds⟩)

omit [DecidableEq L] in
/-- A connection whose `closeCallback_` is still to be called is referenced. -/
theorem Custody.held (hC : Custody s) (hI : Inv erased s)
    (hcall : (conn, .closeCallback) ∈ (s.loops l).calls) : s.Held conn :=
  hI.held ((hC l).calls _ hcall) ((hC l).closing conn hcall).2

/-- **A connection that has lost its last reference never gets one again.** -/
theorem Does.held (h : Does s a s') (hI : Inv erased s) (hC : Custody s) (hheld : s'.Held i) :
    s.Held i ∨ i = s.server.made.length ∧ s'.server.made ≠ s.server.made := by
  cases h with
  | goes hgoes => exact .inl (hgoes.held hheld)
  | runs hgoes hactive hon hindex =>
    rcases hheld.of_perform with hheld | ⟨rfl, -⟩
    · exact .inl (hgoes.held hheld)
    · exact .inl (hI.held hon hindex)
  | establishes hgoes hactive hfunctor hmem =>
    rcases hheld.of_perform with hheld | ⟨-, hne⟩
    · exact .inl (hgoes.held hheld)
    · exact absurd rfl hne
  | destroys hgoes hactive hphase hnone hfunctor hmem =>
    rcases hheld.of_perform with hheld | ⟨rfl, -⟩
    · exact .inl (hgoes.held hheld)
    · exact .inl (.of_holding (List.mem_append_right _ hmem) rfl)
  | configures => exact .inl hheld
  | @accepts lp l wc sockfd localAddr peerAddr s' ha hgoes hactive haccept hphase hs =>
    obtain ⟨server, ioLoop, -, hmade, hconns, hcases⟩ := State.newConnection_eq hs
    have hne : server.made ≠ s.server.made := fun heq => by
      have hlen := congrArg List.length (hmade.symm.trans heq)
      simp [State.setLoop] at hlen
    -- the functor refers to the new connection
    have hnew : i = s.server.made.length ∨
        ({ s.setLoop l lp with server }.setConn s.server.made.length (fresh wc)).Held i := by
      rcases hcases with ⟨-, rfl⟩ | ⟨-, rfl⟩
      · exact hheld.of_perform.symm.imp And.left id
      · exact hheld.of_queueInLoop.symm.imp (fun heq => (Option.some.inj heq).symm) id
    have hserver : s'.server = server := by
      rcases hcases with ⟨-, rfl⟩ | ⟨-, rfl⟩ <;> rfl
    rw [hserver]
    rcases hnew with hi | ⟨name, hname⟩ | hfunctors
    · exact .inr ⟨hi, hne⟩
    · simp only [State.setConn, hconns, State.setLoop, Function.update_apply] at hname
      split_ifs at hname with heq
      · exact .inr ⟨(Option.some.inj hname).symm, hne⟩
      · exact .inl (.inl ⟨name, hname⟩)
    · exact .inl (hgoes.held (.inr hfunctors))
  | asks hgoes hactive hcall hne =>
    rcases hheld.of_queueInLoop with hheld | heq
    · exact .inl (hgoes.held hheld)
    · cases heq
      exact .inl (hC.held hI hcall)
  | @erases lp conn gone closed s' hgoes hactive hgone hclosed hfrom hs =>
    obtain ⟨c, -, rfl⟩ := State.removeConnectionInLoop_eq hs
    rcases hheld.of_queueInLoop with hheld | heq
    · refine .inl (hgoes.held (hheld.imp ?_ id))
      rintro ⟨name, hname⟩
      refine ⟨name, ?_⟩
      simp only [State.setLoop, Function.update_apply] at hname
      split_ifs at hname
      exact hname
    · cases heq
      rcases hfrom with ⟨hcall, -⟩ | hmem
      · exact .inl (hC.held hI hcall)
      · exact .inl (.of_holding (List.mem_append_right _ hmem) rfl)

end Held

/-! ### Descriptors -/

/-- What `accept4` promises: a descriptor that is not open, so that no connection that is still
referenced has it. -/
def Fresh (s : State L) : Act L → Prop
  | .accept _ _ sockfd _ _ => 0 ≤ sockfd ∧ ∀ conn c, s.Held conn →
    s.server.made[conn]? = some c → c.sockfd ≠ sockfd
  | _ => True

/-- Connections that are referenced have different descriptors. -/
def Distinct (s : State L) : Prop :=
  ∀ i j c c', s.Held i → s.Held j → s.server.made[i]? = some c → s.server.made[j]? = some c' →
    c.sockfd = c'.sockfd → i = j

section Distinct

variable [DecidableEq L] {s s' : State L} {a : Act L} {erased : Set ℕ}

/-- A step makes no connection, or the one that it accepts. -/
theorem Does.made (h : Does s a s') : s'.server.made = s.server.made ∨
    ∃ l wc sockfd localAddr peerAddr c, a = .accept l wc sockfd localAddr peerAddr ∧
      s'.server.made = s.server.made ++ [c] ∧ c.sockfd = sockfd := by
  cases h with
  | goes | runs | establishes | destroys | configures | asks => exact .inl rfl
  | accepts ha hgoes hactive haccept hphase hs =>
    obtain ⟨server, ioLoop, -, hmade, -, hcases⟩ := State.newConnection_eq hs
    have hserver : s'.server = server := by
      rcases hcases with ⟨-, rfl⟩ | ⟨-, rfl⟩ <;> rfl
    exact .inr ⟨_, _, _, _, _, _, ha, (congrArg TcpServer.made hserver).trans hmade, rfl⟩
  | erases hgoes hactive hgone hclosed hfrom hs =>
    obtain ⟨c, -, rfl⟩ := State.removeConnectionInLoop_eq hs
    exact .inl rfl

omit [DecidableEq L] in
/-- A connection that is not the last one was made before. -/
theorem getElem?_made {made : List (TcpServer.Connection L)} {c c' : TcpServer.Connection L}
    {i : ℕ} (h : (made ++ [c])[i]? = some c') (hne : i ≠ made.length) : made[i]? = some c' := by
  have hlt := (List.getElem?_eq_some_iff.1 h).1
  rw [List.length_append, List.length_singleton] at hlt
  rwa [List.getElem?_append_left (by omega)] at h

/-- **A step keeps the descriptors different.** -/
theorem Distinct.step (h : Distinct s) (hI : Inv erased s) (hC : Custody s) (hfresh : Fresh s a)
    (hdoes : Does s a s') : Distinct s' := by
  intro i j c c' hi hj hc hc' heq
  rcases hdoes.made with hmade | ⟨l, wc, sockfd, localAddr, peerAddr, c₀, rfl, hmade, rfl⟩
  · have hold {k : ℕ} (hk : s'.Held k) : s.Held k :=
      (hdoes.held hI hC hk).resolve_right fun hne => hne.2 hmade
    rw [hmade] at hc hc'
    exact h i j c c' (hold hi) (hold hj) hc hc' heq
  · -- the connection that is accepted is the only new one
    have hold {k : ℕ} (hk : s'.Held k) (hne : k ≠ s.server.made.length) : s.Held k :=
      (hdoes.held hI hC hk).resolve_right fun hnew => hne hnew.1
    have hlast {c : TcpServer.Connection L}
        (hc : s'.server.made[s.server.made.length]? = some c) : c = c₀ := by
      rw [hmade, List.getElem?_concat_length] at hc
      exact (Option.some.inj hc).symm
    rw [hmade] at hc hc'
    by_cases hi' : i = s.server.made.length
    · by_cases hj' : j = s.server.made.length
      · exact hi'.trans hj'.symm
      · rw [hi', ← hmade] at hc
        rw [hlast hc] at heq
        exact absurd heq.symm (hfresh.2 j c' (hold hj hj') (getElem?_made hc' hj'))
    · by_cases hj' : j = s.server.made.length
      · rw [hj', ← hmade] at hc'
        rw [hlast hc'] at heq
        exact absurd heq (hfresh.2 i c (hold hi hi') (getElem?_made hc hi'))
      · exact h i j c c' (hold hi hi') (hold hj hj') (getElem?_made hc hi') (getElem?_made hc' hj')
          heq

end Distinct

/-! ### Pollers -/

/-- A poller that has the channels of the connections on the loop `l`. -/
structure Shows (fd : ℕ → ℤ) (l : L) (s : State L) (p : EpollPoller ℕ) : Prop where
  exact_ : p.Exact fd
  own : ∀ conn, s.On conn l → p.view conn = (s.conn conn).channel
  foreign : ∀ conn, ¬ s.On conn l → p.view conn = Channel.create

/-- The descriptors are those of the connections that have been made. -/
structure Descriptors (fd : ℕ → ℤ) (s : State L) : Prop where
  nonneg : ∀ conn, 0 ≤ fd conn
  made : ∀ conn c, s.server.made[conn]? = some c → fd conn = c.sockfd

/-- The calls that have been made on a loop bring its poller, without an abort, to a state in which
it has the channels of the connections on the loop. -/
def Pollable [DecidableEq L] (tr : List (State L × Act L)) (s : State L) : Prop :=
  ∀ l fd, Descriptors fd s → ∃ p : EpollPoller ℕ,
    (history l tr).foldlM (EpollPoller.perform fd) EpollPoller.init = some p ∧ Shows fd l s p

section Pollers

variable {s s' : State L} {a : Act L} {l l' : L} {erased : Set ℕ} {fd : ℕ → ℤ}
  {p : EpollPoller ℕ} {conn : ℕ} {ops : List (EpollPoller.Op × ℕ)}

/-- A connection in a poller is on its loop, and referenced. -/
theorem Shows.held (h : Shows fd l s p) (hI : Inv erased s) (hin : p.index conn ≠ .kNew) :
    s.On conn l ∧ s.Held conn := by
  have hindex : (p.view conn).index ≠ .kNew := hin
  by_cases hon : s.On conn l
  · rw [h.own conn hon] at hindex
    exact ⟨hon, hI.held hon hindex⟩
  · rw [h.foreign conn hon] at hindex
    exact absurd rfl hindex

/-- The poller does not see a step that changes none of its channels. -/
theorem Shows.same (h : Shows fd l s p) (hon : ∀ conn, s'.On conn l ↔ s.On conn l)
    (hchannel : ∀ conn, s.On conn l → (s'.conn conn).channel = (s.conn conn).channel) :
    Shows fd l s' p where
  exact_ := h.exact_
  own conn hconn :=
    (h.own conn ((hon conn).1 hconn)).trans (hchannel conn ((hon conn).1 hconn)).symm
  foreign conn hconn := h.foreign conn fun h => hconn ((hon conn).2 h)

theorem on_append {c : TcpServer.Connection L} (hmade : s'.server.made = s.server.made ++ [c]) :
    s'.On conn l ↔ s.On conn l ∨ conn = s.server.made.length ∧ c.ioLoop = l := by
  constructor
  · rintro ⟨c', hc', hloop⟩
    rw [hmade] at hc'
    by_cases heq : conn = s.server.made.length
    · subst heq
      rw [List.getElem?_concat_length] at hc'
      exact .inr ⟨rfl, Option.some.inj hc' ▸ hloop⟩
    · exact .inl ⟨c', getElem?_made hc' heq, hloop⟩
  · rintro (⟨c', hc', hloop⟩ | ⟨rfl, hloop⟩)
    · refine ⟨c', ?_, hloop⟩
      rw [hmade, List.getElem?_append_left (List.getElem?_eq_some_iff.1 hc').1]
      exact hc'
    · exact ⟨c, by rw [hmade, List.getElem?_concat_length], hloop⟩

/-- A channel in the poller under the descriptor of a connection that is referenced is its own. -/
theorem Shows.free (h : Shows fd l s p) (hI : Inv erased s) (hD : Distinct s)
    (hfd : ∀ conn c, s.server.made[conn]? = some c → fd conn = c.sockfd) (hon : s.On conn l)
    (hheld : s.Held conn) : p.Free fd conn := by
  intro i heq hin
  obtain ⟨⟨c, hc, -⟩, hheld'⟩ := h.held hI hin
  obtain ⟨c', hc', -⟩ := hon
  refine hD i conn c c' hheld' hheld hc hc' ?_
  rw [← hfd i c hc, ← hfd conn c' hc', heq]

/-- No channel in the poller has the descriptor of a new connection. -/
theorem Shows.free_new {c : TcpServer.Connection L} (h : Shows fd l s p) (hI : Inv erased s)
    (hfd : Descriptors fd s') (hmade : s'.server.made = s.server.made ++ [c])
    (hfresh : ∀ i c', s.Held i → s.server.made[i]? = some c' → c'.sockfd ≠ c.sockfd) :
    p.Free fd s.server.made.length := by
  intro i heq hin
  obtain ⟨⟨c', hc', -⟩, hheld⟩ := h.held hI hin
  have hlast : s'.server.made[s.server.made.length]? = some c := by
    rw [hmade, List.getElem?_concat_length]
  have hget : s'.server.made[i]? = some c' := by
    rw [hmade, List.getElem?_append_left (List.getElem?_eq_some_iff.1 hc').1]
    exact hc'
  refine absurd ?_ (hfresh i c' hheld hc')
  rw [← hfd.made i c' hget, ← hfd.made _ c hlast, heq]

/-- Calls on the channel of a connection that has been made. -/
theorem Shows.made (h : Shows fd l s p) (hI : Inv erased s) (hD : Distinct s)
    (hfd : Descriptors fd s') {own : List EpollPoller.Op}
    (hmade : s'.server.made = s.server.made)
    (hother : ∀ i, i ≠ conn → (s'.conn i).channel = (s.conn i).channel)
    (hself : (s'.conn conn).channel =
      own.foldl (fun c op => op.onChannel c) (s.conn conn).channel)
    (hon : s.On conn l) (hheld : s.Held conn) : ∃ p' : EpollPoller ℕ,
      (own.map (·, conn)).foldlM (EpollPoller.perform fd) p = some p' ∧ Shows fd l s' p' := by
  have hsame (i : ℕ) : s'.On i l ↔ s.On i l := by simp only [State.On, hmade]
  have hfree : p.Free fd conn := h.free hI hD (fun i c hc => hfd.made i c (hmade ▸ hc)) hon hheld
  obtain ⟨p', hrun, hexact, hview, hviews⟩ := h.exact_.run hfd.nonneg hfree own
  refine ⟨p', hrun, hexact, fun i hi => ?_, fun i hi => ?_⟩
  · by_cases heq : i = conn
    · rw [heq, hview, hself, h.own conn hon]
    · rw [hviews i heq, hother i heq, h.own i ((hsame i).1 hi)]
  · have hne : i ≠ conn := by
      rintro rfl
      exact hi ((hsame i).2 hon)
    rw [hviews i hne, h.foreign i fun h => hi ((hsame i).2 h)]

/-- A new connection on the loop. -/
theorem Shows.new {c : TcpServer.Connection L} (h : Shows fd l s p) (hI : Inv erased s)
    (hfd : Descriptors fd s') {own : List EpollPoller.Op}
    (hmade : s'.server.made = s.server.made ++ [c])
    (hfresh : ∀ i c', s.Held i → s.server.made[i]? = some c' → c'.sockfd ≠ c.sockfd)
    (hother : ∀ i, i ≠ s.server.made.length → (s'.conn i).channel = (s.conn i).channel)
    (hself : (s'.conn s.server.made.length).channel =
      own.foldl (fun c op => op.onChannel c) Channel.create)
    (hl : c.ioLoop = l) : ∃ p' : EpollPoller ℕ,
      (own.map (·, s.server.made.length)).foldlM (EpollPoller.perform fd) p = some p' ∧
        Shows fd l s' p' := by
  have hcreate := h.foreign s.server.made.length fun h => lt_irrefl _ h.lt
  have hfree := h.free_new hI hfd hmade hfresh
  obtain ⟨p', hrun, hexact, hview, hviews⟩ := h.exact_.run hfd.nonneg hfree own
  refine ⟨p', hrun, hexact, fun i hi => ?_, fun i hi => ?_⟩
  · rcases (on_append hmade).1 hi with hold | ⟨rfl, -⟩
    · have hne : i ≠ s.server.made.length := hold.lt.ne
      rw [hviews i hne, hother i hne, h.own i hold]
    · rw [hview, hself, hcreate]
  · have hne : i ≠ s.server.made.length := by
      rintro rfl
      exact hi ((on_append hmade).2 (.inr ⟨rfl, hl⟩))
    rw [hviews i hne, h.foreign i fun h => hi ((on_append hmade).2 (.inl h))]

/-- The poller of the loop that takes the step goes along; the other ones are left alone. -/
theorem Shows.step [DecidableEq L] (h : Shows fd l s p) (hI : Inv erased s) (hD : Distinct s)
    (hfd : Descriptors fd s') (hfresh : ∀ c, s'.server.made = s.server.made ++ [c] →
      ∀ i c', s.Held i → s.server.made[i]? = some c' → c'.sockfd ≠ c.sockfd)
    (hop : Operates s l' ops s') : ∃ p' : EpollPoller ℕ,
      (if l' = l then ops else []).foldlM (EpollPoller.perform fd) p = some p' ∧
        Shows fd l s' p' := by
  cases hop with
  | @made conn own hops hmade hother hself hon =>
    subst hops
    have hsame (i : ℕ) : s'.On i l ↔ s.On i l := by simp only [State.On, hmade]
    by_cases hnil : own = []
    · -- nothing happens to any channel
      subst hnil
      rw [List.map_nil, ite_self]
      refine ⟨p, rfl, h.same hsame fun i _ => ?_⟩
      by_cases heq : i = conn
      · rw [heq, hself]
        rfl
      · exact hother i heq
    obtain ⟨honl, hheld⟩ := hon hnil
    by_cases hl : l' = l
    · rw [if_pos hl]
      exact h.made hI hD hfd hmade hother hself (hl ▸ honl) hheld
    · rw [if_neg hl]
      refine ⟨p, rfl, h.same hsame fun i hi => hother i ?_⟩
      rintro rfl
      exact hl (honl.unique hi)
  | @new c own hops hmade hother hself hon =>
    subst hops
    by_cases hl : c.ioLoop = l
    · -- a connection that is registered at once is on the loop that takes the step
      have hown : (if l' = l then own.map (·, s.server.made.length) else []) =
          own.map (·, s.server.made.length) := by
        by_cases hnil : own = []
        · rw [hnil, List.map_nil, ite_self]
        · rw [if_pos ((hon hnil).symm.trans hl)]
      rw [hown]
      exact h.new hI hfd hmade (hfresh c hmade) hother hself hl
    · have hsame (i : ℕ) : s'.On i l ↔ s.On i l := by
        rw [on_append hmade, or_iff_left fun h => hl h.2]
      have hnone : (if l' = l then own.map (·, s.server.made.length) else []) = [] := by
        by_cases hnil : own = []
        · rw [hnil, List.map_nil, ite_self]
        · rw [if_neg fun heq => hl ((hon hnil).trans heq)]
      rw [hnone]
      exact ⟨p, rfl, h.same hsame fun i hi => hother i hi.lt.ne⟩

end Pollers

/-! ### Runs -/

section Runs

variable [DecidableEq L] {s s' : State L} {a : Act L} {l : L} {loop : L}
  {listenAddr : InetAddress} {name : List UInt8} {loops : List L} {fd : ℕ → ℤ}

theorem Pollable.step {tr : List (State L × Act L)} (h : Pollable tr s) {erased : Set ℕ}
    (hI : Inv erased s) (hD : Distinct s) (hfresh : Fresh s a) (hst : (lts L).step s a s') :
    Pollable (tr ++ [(s, a)]) s' := by
  intro l fd hfd
  have hdoes := hI.does hst
  have hprefix : s.server.made <+: s'.server.made := by
    rcases hdoes.made with hmade | ⟨l, wc, sockfd, localAddr, peerAddr, c₀, rfl, hmade, rfl⟩
    · exact hmade ▸ List.prefix_rfl
    · exact hmade ▸ List.prefix_append ..
  have hfd₀ : Descriptors fd s := ⟨hfd.nonneg, fun conn c hc => by
    obtain ⟨rest, hrest⟩ := hprefix
    refine hfd.made conn c ?_
    rw [← hrest, List.getElem?_append_left (List.getElem?_eq_some_iff.1 hc).1]
    exact hc⟩
  obtain ⟨p, hfold, hshows⟩ := h l fd hfd₀
  obtain ⟨p', hfold', hshows'⟩ := hshows.step hI hD hfd (fun c hmade i c' hheld hc' => by
    rcases hdoes.made with hsame | ⟨l, wc, sockfd, localAddr, peerAddr, c₀, rfl, hmade', rfl⟩
    · have hlen := congrArg List.length (hsame.symm.trans hmade)
      simp at hlen
    · rw [hmade'] at hmade
      rw [← List.singleton_inj.1 (List.append_cancel_left hmade)]
      exact hfresh.2 i c' hheld hc') (hI.operates hst)
  refine ⟨p', ?_, hshows'⟩
  rw [history, List.flatMap_append, List.foldlM_append, ← history, hfold, List.flatMap_singleton]
  exact hfold'

theorem pollable_init : Pollable [] (State.init loop listenAddr name loops) := fun l fd _ =>
  ⟨_, rfl, EpollPoller.exact_init, fun conn ⟨c, hc, _⟩ => by
    simp [State.init, TcpServer.create] at hc, fun _ _ => rfl⟩

omit [DecidableEq L] in
theorem distinct_init : Distinct (State.init loop listenAddr name loops) := by
  intro i j c c' _ _ hc
  simp [State.init, TcpServer.create] at hc

/-- What holds after a run in which `accept4` keeps its promise. -/
theorem pollable {tr : List (State L × Act L)}
    (h : (lts L).Run (State.init loop listenAddr name loops) tr s)
    (hfresh : ∀ p ∈ tr, Fresh p.1 p.2) :
    ∃ erased, Inv erased s ∧ Custody s ∧ Distinct s ∧ Pollable tr s := by
  induction h with
  | nil => exact ⟨∅, .init, custody_init, distinct_init, pollable_init⟩
  | snoc hrun hst ih =>
    obtain ⟨erased, hI, hC, hD, hP⟩ := ih fun p hp => hfresh p (List.mem_append_left _ hp)
    have hlast := hfresh _ List.mem_concat_self
    obtain ⟨erased', hI'⟩ := hI.step hst
    have hdoes := hI.does hst
    exact ⟨erased', hI', hC.step hI hdoes, hD.step hI hC hlast hdoes, hP.step hI hD hlast hst⟩

/-- **The references to a connection.**  The loops of a server do what they like, and `accept4`
returns no descriptor that is still open.  Then a connection that has lost its last reference never
gets one again, and any two connections that are referenced have different descriptors. -/
theorem lifetimes (h : (lts L).ReachableBy Fresh (State.init loop listenAddr name loops) s) :
    (∀ s', (lts L).Reachable s s' → ∀ conn < s.server.made.length, ¬ s.Held conn →
      ¬ s'.Held conn) ∧ Distinct s := by
  obtain ⟨tr, hrun, hfresh⟩ := h
  obtain ⟨erased, hI, hC, hD, -⟩ := pollable hrun hfresh
  refine ⟨fun s' hs' conn hlt hnot => ?_, hD⟩
  refine (hs'.invariant (I := fun s' => (∃ erased, Inv erased s' ∧ Custody s') ∧
    conn < s'.server.made.length ∧ ¬ s'.Held conn) ⟨⟨erased, hI, hC⟩, hlt, hnot⟩ ?_).2.2
  rintro s₁ a s₂ ⟨⟨erased, hI, hC⟩, hlt, hnot⟩ hst
  obtain ⟨erased', hI'⟩ := hI.step hst
  have hdoes := hI.does hst
  refine ⟨⟨erased', hI', hC.step hI hdoes⟩, ?_, fun hheld => ?_⟩
  · rcases hdoes.made with hmade | ⟨_, _, _, _, _, c, -, hmade, -⟩
    · exact hmade ▸ hlt
    · rw [hmade, List.length_append]
      omega
  · rcases hdoes.held hI hC hheld with hheld | ⟨rfl, -⟩
    · exact hnot hheld
    · exact lt_irrefl _ hlt

/-- The maps of a poller hold the channels of the connections on the loop `l` that are in it, with
the masks that their channels say, and nothing else. -/
structure Mirrors (fd : ℕ → ℤ) (l : L) (s : State L) (p : EpollPoller ℕ) : Prop where
  interest_iff : ∀ n e, p.interest n = some e ↔ ∃ conn, s.On conn l ∧ fd conn = n ∧
    (s.conn conn).channel.index = .kAdded ∧ e = ⟨(s.conn conn).channel.events, conn⟩
  channels_iff : ∀ n conn, p.channels n = some conn ↔
    s.On conn l ∧ fd conn = n ∧ (s.conn conn).channel.index ≠ .kNew
  /-- The kernel holds for a connection what its own channel says. -/
  interest_eq : ∀ conn, s.On conn l → (s.conn conn).channel.index ≠ .kNew →
    (s.conn conn).channel.interest = (p.interest (fd conn)).map (·.events)
  legal : ∀ call ∈ p.issued, EpollPoller.LegalCall call

omit [DecidableEq L] in
theorem Shows.mirrors {p : EpollPoller ℕ} (h : Shows fd l s p) : Mirrors fd l s p := by
  have hindex (conn : ℕ) (hin : p.index conn ≠ .kNew) :
      s.On conn l ∧ p.view conn = (s.conn conn).channel := by
    have hon : s.On conn l := by
      by_contra hon
      exact hin (congrArg Channel.index (h.foreign conn hon))
    exact ⟨hon, h.own conn hon⟩
  refine ⟨fun n e => ?_, fun n conn => ?_, fun conn hon hin => ?_, h.exact_.legal⟩
  · rw [h.exact_.interest_iff]
    constructor
    · rintro ⟨hfd, hadded, hevents⟩
      obtain ⟨hon, hview⟩ := hindex e.ptr (by simp [hadded])
      refine ⟨e.ptr, hon, hfd, ?_, ?_⟩
      · rw [← hview]
        exact hadded
      · rw [← hview]
        exact congrArg (EpollEvent.mk · e.ptr) hevents
    · rintro ⟨conn, hon, hfd, hadded, rfl⟩
      have hview := h.own conn hon
      rw [← hview] at hadded ⊢
      exact ⟨hfd, hadded, rfl⟩
  · rw [h.exact_.channels_iff]
    constructor
    · rintro ⟨hfd, hin⟩
      obtain ⟨hon, hview⟩ := hindex conn hin
      rw [← hview]
      exact ⟨hon, hfd, hin⟩
    · rintro ⟨hon, hfd, hin⟩
      rw [← h.own conn hon] at hin
      exact ⟨hfd, hin⟩
  · have hview := h.own conn hon
    rw [← hview] at hin ⊢
    have hat := h.exact_.at_free (h.exact_.free hin)
    exact congrArg Channel.interest (EpollPoller.channel_of_at hat).symm

/-- **The pollers of a server are exact, though descriptors are used again.**  The loops of a server
do what they like, and `accept4` returns no descriptor that is still open.  Then none of the calls
that the thread of a loop makes on the channels of connections aborts.  Together they bring the
poller to a state in which every `epoll_ctl` was legal, and it holds the channels of the connections
on its loop, each under its own descriptor, and no other connection's. -/
theorem pollers_exact {tr : List (State L × Act L)}
    (h : (lts L).Run (State.init loop listenAddr name loops) tr s)
    (hfresh : ∀ p ∈ tr, Fresh p.1 p.2) (l : L) (hfd : Descriptors fd s) :
    ∃ p : EpollPoller ℕ,
      (history l tr).foldlM (EpollPoller.perform fd) EpollPoller.init = some p ∧
        Mirrors fd l s p := by
  obtain ⟨erased, -, -, -, hP⟩ := pollable h hfresh
  obtain ⟨p, hrun, hshows⟩ := hP l fd hfd
  exact ⟨p, hrun, hshows.mirrors⟩

omit [DecidableEq L] in
theorem AcceptsFive.fresh (h : AcceptsFive s a) : Fresh s a := by
  cases a with
  | accept l wc sockfd localAddr peerAddr =>
    obtain ⟨rfl, hfresh⟩ := h l wc sockfd localAddr peerAddr rfl
    exact ⟨by decide, hfresh⟩
  | _ => trivial

/-- A connection that has been released stays so, when the next one is given its descriptor. -/
theorem lifetimes_reused : ∃ s s' : State Unit,
    s'.server.made.map TcpServer.Connection.sockfd = [5, 5] ∧ ¬ s'.Held 0 ∧ Distinct s := by
  obtain ⟨s, s', h, hrest, hclosed, h', hfds, -⟩ :=
    exists_hangup (C := Fresh) fun _ _ => AcceptsFive.fresh
  obtain ⟨erased, hI, hA⟩ := Accounted.reachable h.reachable
  have hnot : ¬ s.Held 0 := fun hheld =>
    (hA.settled hI hrest hclosed.1).held.1 hheld hclosed.2
  obtain ⟨hlost, hdistinct⟩ := lifetimes h
  exact ⟨s, s', hfds, hlost s' h'.reachable 0 hclosed.1 hnot, hdistinct⟩

/-- The poller that has had the descriptor 5 of one connection has that of the next one. -/
theorem pollers_exact_reused : ∃ (tr : List (State Unit × Act Unit)) (s : State Unit)
    (p : EpollPoller ℕ), (history () tr).foldlM (EpollPoller.perform fun _ => 5)
      EpollPoller.init = some p ∧
    Mirrors (fun _ => 5) () s p ∧ s.server.made.length = 2 ∧ p.channels 5 = some 1 := by
  obtain ⟨s, s', h, -, -, h', hfds, hon, hindex⟩ :=
    exists_hangup (C := Fresh) fun _ _ => AcceptsFive.fresh
  have hfd : Descriptors (fun _ => 5) s' := by
    refine ⟨fun _ => by decide, fun conn c hc => ?_⟩
    have hmem := List.mem_map_of_mem (f := TcpServer.Connection.sockfd) (List.mem_of_getElem? hc)
    rw [hfds] at hmem
    have hfive : c.sockfd = 5 := by simpa using hmem
    exact hfive.symm
  obtain ⟨tr, hrun, hfresh⟩ := h.trans h'
  obtain ⟨p, hfold, hmirrors⟩ := pollers_exact hrun hfresh () hfd
  refine ⟨tr, s', p, hfold, hmirrors, ?_, (hmirrors.channels_iff _ _).2 ⟨hon, rfl, hindex⟩⟩
  rw [← List.length_map (f := TcpServer.Connection.sockfd), hfds]
  rfl

end Runs

end ServerLoops

end TinyNetwork
