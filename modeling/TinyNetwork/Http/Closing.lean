import TinyNetwork.Http.HttpServer

/-!
# After the connection is told to close

A 400 response, and a response with `closeConnection()`, is followed by `shutdown`.  Reads keep
arriving, and what earlier ones have left in the input buffer is still there.  `send` and `shutdown`
look at the state of the connection; `onMessage` does not, and gives the next whole request to
`httpCallback_`.

## Main results

* `Guarded.unsent` : nothing is sent any more.
* `closing_iff` : nothing is served any more iff no read finds a whole request.
-/

namespace TinyNetwork

open HttpContext

namespace HttpServer.Session

/-- A 400 response or a response with `closeConnection()` has been sent. -/
def Told (s : Session) : Prop := 0 < s.badRequests ∨ 0 < s.closeResponses

/-- If the connection has been told to close, the action does not call `httpCallback_`, nor does a
read send a byte. -/
def Quiet (httpCallback : HttpCallback) (s : Session) (a : Action) : Prop :=
  s.Told → ∀ s', (lts httpCallback).step s a s' → s'.requests = s.requests ∧
    ∀ bytes t w w', a = .read bytes t w w' →
      s'.conn.socket = s.conn.socket ∧ s'.conn.outputBuffer = s.conn.outputBuffer

/-- A read of a connection that has been told to close, after which the unread bytes start with a
whole request. -/
def Pipelined (s : Session) : Action → Prop
  | .read bytes _ _ _ => s.Told ∧ StartsWithRequest (s.conn.inputBuffer.readable ++ bytes)
  | .event _ => False

/-- A connection that has been told to close is not connected. -/
structure Guarded (s : Session) : Prop where
  wf : s.conn.inputBuffer.Wf
  closed : s.Told → s.conn.state ≠ .kConnected

variable {httpCallback : HttpCallback} {s s' : Session} {a : Action} {bytes : List UInt8} {t : ℤ}
  {w w' : WriteResult}

theorem guarded_start (wc hw : Bool) (mark : ℕ) : Guarded (start wc hw mark) where
  wf := Buffer.wf_empty
  closed := fun h => by rcases h with h | h <;> simp [start] at h

/-- **Every step keeps a connection that has been told to close from being connected.** -/
theorem Guarded.step (hJ : Guarded s) (h : (lts httpCallback).step s a s') : Guarded s' := by
  cases a with
  | event e =>
    obtain ⟨hwf, hstate, heq⟩ := event_frame hJ.wf h
    have htold : s'.Told → s.Told := by rw [heq]; exact id
    exact ⟨hwf, fun hs => hstate (hJ.closed (htold hs))⟩
  | read bytes t w w' =>
    rcases read_cases hJ.wf h with ⟨q, d, -, hd, rfl⟩ | ⟨inputBuffer, hwf, rfl, -⟩
    · refine ⟨hd.wf, fun hs => ?_⟩
      by_cases hnew : d.badRequest = true ∨ d.closeResponse = true
      · exact hd.told hnew
      · -- told before this call
        obtain ⟨hbad, hclose⟩ := not_or.1 hnew
        have hold : s.Told := by simpa [Told, after, hbad, hclose] using hs
        rw [show (s.after d).conn = d.conn from rfl, (hd.unsent (hJ.closed hold)).1]
        exact hJ.closed hold
    · exact ⟨hwf, hJ.closed⟩

/-- **A read sends nothing on a connection that has been told to close.** -/
theorem Guarded.unsent (hJ : Guarded s) (htold : s.Told)
    (h : (lts httpCallback).step s (.read bytes t w w') s') :
    s'.conn.socket = s.conn.socket ∧ s'.conn.outputBuffer = s.conn.outputBuffer := by
  rcases read_cases hJ.wf h with ⟨q, d, -, hd, rfl⟩ | ⟨inputBuffer, -, rfl, -⟩
  · rw [show (s.after d).conn = d.conn from rfl, (hd.unsent (hJ.closed htold)).1]
    exact ⟨rfl, rfl⟩
  · exact ⟨rfl, rfl⟩

/-- A read calls `httpCallback_` iff it finds a whole request. -/
theorem Guarded.served_iff (hJ : Guarded s)
    (h : (lts httpCallback).step s (.read bytes t w w') s') :
    s'.requests ≠ s.requests ↔ StartsWithRequest (s.conn.inputBuffer.readable ++ bytes) := by
  rcases read_cases hJ.wf h with ⟨q, d, hparses, hd, rfl⟩ | ⟨inputBuffer, -, rfl, hnone⟩
  · rw [← hparses.of_new.2]
    have hrequest := hd.request
    by_cases hall : q.context.state = .kGotAll
    · rw [if_pos hall] at hrequest
      obtain ⟨r, hr, -⟩ := Option.map_eq_some_iff.1 hrequest
      simp [after, hr, hall]
    · rw [if_neg hall, Option.map_eq_none_iff] at hrequest
      simp [after, hrequest, hall]
  · exact ⟨fun h => absurd rfl h, fun hstarts => absurd hstarts.parses hnone⟩

/-- A step is quiet iff it is not a read that finds a whole request. -/
theorem Guarded.quiet_iff (hJ : Guarded s) (hst : (lts httpCallback).step s a s') :
    s.Quiet httpCallback a ↔ ¬ s.Pipelined a := by
  cases a with
  | event e =>
    refine ⟨fun _ => id, fun _ _ s₁ hst₁ => ⟨?_, fun _ _ _ _ h => nomatch h⟩⟩
    rw [(event_frame hJ.wf hst₁).2.2]
  | read bytes t w w' =>
    constructor
    · rintro hquiet ⟨htold, hstarts⟩
      exact (hJ.served_iff hst).2 hstarts (hquiet htold s' hst).1
    · intro hpipelined htold s₁ hst₁
      refine ⟨?_, fun _ _ _ _ _ => hJ.unsent htold hst₁⟩
      by_contra hserved
      exact hpipelined ⟨htold, (hJ.served_iff hst₁).1 hserved⟩

/-- **When a closing connection is quiet.**  In a run of a connection, no step after a 400 response
or a response with `closeConnection()` calls `httpCallback_` or has a read send a byte, iff no read
after it finds a whole request in front of the unread bytes. -/
theorem closing_iff {wc hw : Bool} {mark : ℕ} {tr : List (Session × Action)}
    (h : (lts httpCallback).Run (start wc hw mark) tr s) :
    (∀ p ∈ tr, p.1.Quiet httpCallback p.2) ↔ ∀ p ∈ tr, ¬ p.1.Pipelined p.2 := by
  have hguarded := (h.invariant (guarded_start wc hw mark) fun _ _ _ hJ hst => hJ.step hst).1
  refine forall₂_congr fun p hp => ?_
  obtain ⟨s₁, -, hst, -⟩ := h.exists_step hp
  exact (hguarded p hp).quiet_iff hst

/-- `GET / HTTP/1.1` without headers. -/
def get : List UInt8 := ascii "GET / HTTP/1.1\r\n\r\n"

/-- A single request is answered, and the connection closed. -/
theorem closing_iff_get : ∃ tr s, (lts defaultHttpCallback).Run (start false false 0) tr s ∧
    tr.map Prod.snd = [.read get 0 (.accepted 0) (.accepted 45)] ∧ s.Told ∧
    ∀ p ∈ tr, p.1.Quiet defaultHttpCallback p.2 := by
  have hplay : ([.read get 0 (.accepted 0) (.accepted 45)].foldlM
      (perform defaultHttpCallback 10) (start false false 0)).map (·.closeResponses) = some 1 := by
    decide +kernel
  obtain ⟨s, hplay, hs⟩ := Option.map_eq_some_iff.1 hplay
  obtain ⟨tr, hrun, htr⟩ := run_of_perform hplay
  refine ⟨tr, s, hrun, htr, .inr (by omega), (closing_iff hrun).2 fun p hp hpipelined => ?_⟩
  obtain ⟨q, rfl, hq⟩ := List.map_eq_singleton_iff.1 htr
  obtain rfl := List.mem_singleton.1 hp
  rw [hrun.uncons.1, hq] at hpipelined
  rcases hpipelined.1 with htold | htold <;> simp [start] at htold

/-- Two requests arrive in one read; the response to the first closes the connection, and the next
byte has the second one served. -/
theorem not_quiet_pipelined : ∃ tr s, (lts defaultHttpCallback).Run (start false false 0) tr s ∧
    tr.map Prod.snd = [.read (get ++ get) 0 (.accepted 0) (.accepted 45),
      .read (ascii "G") 0 (.accepted 0) (.accepted 0)] ∧
    ¬ ∀ p ∈ tr, p.1.Quiet defaultHttpCallback p.2 := by
  have hplay : (perform defaultHttpCallback 10 (start false false 0)
      (.read (get ++ get) 0 (.accepted 0) (.accepted 45))).bind (fun s₁ =>
        (perform defaultHttpCallback 10 s₁ (.read (ascii "G") 0 (.accepted 0) (.accepted 0))).map
          fun s₂ => (s₁.closeResponses, s₁.requests.length, s₂.requests.length)) =
      some (1, 1, 2) := by
    decide +kernel
  obtain ⟨s₁, hone, hplay⟩ := Option.bind_eq_some_iff.1 hplay
  obtain ⟨s₂, htwo, hs⟩ := Option.map_eq_some_iff.1 hplay
  obtain ⟨hclose, hlen, hlen'⟩ := by simpa only [Prod.mk.injEq] using hs
  refine ⟨_, s₂, (LTS.Run.nil.snoc (step_of_perform hone)).snoc (step_of_perform htwo), rfl,
    fun hquiet => ?_⟩
  have htold : s₁.Told := .inr (hclose ▸ Nat.one_pos)
  have hsame : s₂.requests = s₁.requests :=
    (hquiet (s₁, _) List.mem_concat_self htold s₂ (step_of_perform htwo)).1
  rw [hsame, hlen] at hlen'
  cases hlen'

end HttpServer.Session

end TinyNetwork
