import MediaLink.Session.Run

/-! What calls to the outside leave behind: events in the queue and acts on record. Nothing else
of the world changes, and what was there stays in front. -/
namespace MediaLink.World

variable {κ : Type}

/-- An event that the outside can have posted: through a sink that was handed out, or as an answer
that needs no sink. -/
def Foreign (w : World κ) : Event κ → Prop
  | .binder sink _ => sink ∈ w.binderSinks
  | .provider sink _ => sink ∈ w.providerSinks
  | .item .. | .barrier => True
  | .bindRefused _ | .lost .. => False

/-- The world with more events in its queue, and other remarks. -/
def heard (news : List (Event κ)) (remarks : List (Remark κ)) (w : World κ) : World κ :=
  { w with queue := w.queue ++ news, remarks }

/-- What a call of an attempt leaves in the queue when it fails. -/
def echo (token : Token) : Option RemoteFault → List (Event κ)
  | some fault => if fault.losesConnection then [.lost token fault] else []
  | none => []

theorem mem_echo {token : Token} {failure : Option RemoteFault} {e : Event κ}
    (h : e ∈ echo token failure) :
    ∃ fault, failure = some fault ∧ fault.losesConnection ∧ e = .lost token fault := by
  cases failure with
  | none => simp [echo] at h
  | some fault =>
    by_cases hf : fault.losesConnection <;> simp [echo, hf] at h
    exact ⟨fault, rfl, hf, h⟩

theorem heard_nil (w : World κ) : w.heard [] w.remarks = w := by
  rw [heard, List.append_nil]

theorem heard_heard (first later : List (Event κ)) (r s : List (Remark κ)) (w : World κ) :
    (w.heard first r).heard later s = w.heard (first ++ later) s := by
  simp only [heard, List.append_assoc]

theorem remark_heard (news : List (Event κ)) (remarks : List (Remark κ)) (r : Remark κ)
    (w : World κ) : (w.heard news remarks).remark r = w.heard news (r :: remarks) := rfl

theorem offer_eq (e : Event κ) (unheard : Remark κ) (w : World κ) : ∃ news remarks,
    w.offer e unheard = w.heard news remarks ∧ ∀ x ∈ news, x = e := by
  by_cases hl : w.loop = .closed
  · exact ⟨[], _, by rw [offer, if_pos hl, heard, List.append_nil]; rfl, by simp⟩
  · exact ⟨[e], w.remarks, by rw [offer, if_neg hl, heard], by simp⟩

theorem enqueue_eq (e : Event κ) {w : World κ} (hl : w.loop ≠ .closed) :
    w.enqueue e = w.heard [e] w.remarks := by
  rw [enqueue, offer, if_neg hl, heard]

theorem post_eq (posting : Posting) (w : World κ) : ∃ news remarks,
    w.post posting = w.heard news remarks ∧ ∀ e ∈ news, w.Foreign e := by
  cases posting with
  | binder sink note =>
    by_cases hs : sink ∈ w.binderSinks
    · obtain ⟨news, remarks, he, hn⟩ := w.offer_eq (.binder sink note) (.binderUnheard sink)
      exact ⟨news, remarks, by rw [post, if_pos hs, he], fun e h => by rwa [hn e h]⟩
    · exact ⟨[], w.remarks, by rw [post, if_neg hs, heard_nil], by simp⟩
  | provider sink note =>
    by_cases hs : sink ∈ w.providerSinks
    · obtain ⟨news, remarks, he, hn⟩ := w.offer_eq (.provider sink note)
        (.providerUnheard sink.token (.provider sink note))
      exact ⟨news, remarks, by rw [post, if_pos hs, he], fun e h => by rwa [hn e h]⟩
    · exact ⟨[], w.remarks, by rw [post, if_neg hs, heard_nil], by simp⟩

theorem postAll_eq (posts : List Posting) (w : World κ) : ∃ news remarks,
    w.postAll posts = w.heard news remarks ∧ ∀ e ∈ news, w.Foreign e := by
  induction posts generalizing w with
  | nil => exact ⟨[], w.remarks, w.heard_nil.symm, by simp⟩
  | cons posting posts ih =>
    obtain ⟨first, r, hp, hf⟩ := w.post_eq posting
    obtain ⟨later, s, hr, hl⟩ := ih (w.post posting)
    refine ⟨first ++ later, s, hr.trans (by rw [hp, heard_heard]), ?_⟩
    rw [hp] at hl
    intro e he
    rcases List.mem_append.mp he with he | he
    · exact hf e he
    · exact hl e he

theorem invoke_eq (answer : CallAnswer) (p : Provider) (call : Call) (w : World κ) :
    ∃ news remarks,
      w.invoke answer p call = (w.act (.call p call answer.failure)).heard news remarks ∧
      ∀ e ∈ news, w.Foreign e :=
  (w.act (.call p call answer.failure)).postAll_eq answer.posts

theorem requestBinding_eq (t : Transport) (token : Token) {w : World κ} (hl : w.loop ≠ .closed) :
    ∃ news remarks, w.requestBinding t token =
      (act (.bind token (t.bind token).granted)
        { w with binderSinks := w.binderSinks ++ [token] }).heard
          (news ++ if (t.bind token).granted then [] else [.bindRefused token]) remarks ∧
      ∀ e ∈ news, Foreign { w with binderSinks := w.binderSinks ++ [token] } e := by
  obtain ⟨news, remarks, hp, hn⟩ := postAll_eq (t.bind token).posts
    (act (.bind token (t.bind token).granted)
      { w with binderSinks := w.binderSinks ++ [token] })
  rw [requestBinding]
  simp only [hp]
  cases hg : (t.bind token).granted with
  | true => exact ⟨news, remarks, by simp, hn⟩
  | false =>
    refine ⟨news, .bindRefused :: remarks, ?_, hn⟩
    simp only [Bool.false_eq_true, if_false, remark_heard]
    refine (enqueue_eq _ ?_).trans (heard_heard ..)
    exact hl

theorem send_eq (t : Transport) (p : Provider) (call : Call) {w : World κ}
    (hl : w.loop ≠ .closed) : ∃ news remarks,
    w.send t p call = (w.act (.call p call (t.call p call).failure)).heard
      (news ++ echo call.token (t.call p call).failure) remarks ∧ ∀ e ∈ news, w.Foreign e := by
  obtain ⟨news, remarks, hi, hn⟩ := w.invoke_eq (t.call p call) p call
  rw [send, hi]
  cases hf : (t.call p call).failure with
  | none => exact ⟨news, remarks, by simp [echo], hn⟩
  | some fault =>
    refine ⟨news, .callFailed call fault :: remarks, ?_, hn⟩
    by_cases hc : fault.losesConnection
    · simp only [callFailed, remark_heard, hc, if_true, echo]
      refine (enqueue_eq _ ?_).trans (heard_heard ..)
      exact hl
    · simp [callFailed, remark, hc, echo, heard]

theorem send_history (t : Transport) (p : Provider) (call : Call) (w : World κ) :
    (w.send t p call).history = .call p call (t.call p call).failure :: w.history := by
  obtain ⟨news, remarks, hi, -⟩ := w.invoke_eq (t.call p call) p call
  rw [send, hi]
  cases hf : (t.call p call).failure with
  | none => rfl
  | some fault =>
    obtain ⟨more, later, ho, -⟩ := offer_eq (.lost call.token fault)
      (.eventDropped (.lost call.token fault))
      (heard news (.callFailed call fault :: remarks) (w.act (.call p call (some fault))))
    simp only [callFailed, remark_heard, enqueue, ho]
    split <;> rfl

/-- The calls that tell a provider about all subscriptions, oldest first. -/
def replayed (t : Transport) (s : Session κ) : List (Act κ) :=
  match s.live? with
  | some (p, token) => s.subscriptions.replay.map fun (node, options) =>
    .call p (.add token node options) (t.call p (.add token node options)).failure
  | none => []

/-- Resending leaves what was posted, and a lost channel for each call that found it gone. -/
theorem resends_eq (t : Transport) (p : Provider) (token : Token)
    (entries : List (String × Option Payload)) {w : World κ} (hl : w.loop ≠ .closed) :
    ∃ news remarks, entries.foldl (resend t p token) w =
      heard news remarks
        { w with
          history := (entries.map fun (node, options) =>
            .call p (.add token node options)
              (t.call p (.add token node options)).failure).reverse ++ w.history } ∧
      (∀ e ∈ news, w.Foreign e ∨ ∃ fault, e = .lost token fault) ∧
      ∀ node options, (node, options) ∈ entries →
        ∀ e ∈ echo token (t.call p (.add token node options)).failure, e ∈ news := by
  induction entries generalizing w with
  | nil => exact ⟨[], w.remarks, w.heard_nil.symm, by simp, by simp⟩
  | cons entry entries ih =>
    obtain ⟨node, options⟩ := entry
    obtain ⟨first, _, hs, hf⟩ := send_eq t p (.add token node options)
      (w := w.remark (.resubscribing node options)) hl
    obtain ⟨later, remarks, hr, hn, he⟩ := ih (w := resend t p token w (node, options))
      (by rw [resend, hs]; exact hl)
    rw [resend, hs] at hn
    refine ⟨first ++ echo token (t.call p (.add token node options)).failure ++ later, remarks,
      ?_, ?_, ?_⟩
    · rw [List.foldl_cons, hr, resend, hs]
      simp [heard, act, remark, Call.token]
    · intro e h
      rcases List.mem_append.mp h with h | h
      · rcases List.mem_append.mp h with h | h
        · exact .inl (hf e h)
        · obtain ⟨fault, -, -, rfl⟩ := mem_echo h
          exact .inr ⟨fault, rfl⟩
      · exact hn e h
    · intro n o h e h'
      rcases List.mem_cons.mp h with h | h
      · cases h
        simp [h']
      · simp [he n o h e h']

end MediaLink.World
