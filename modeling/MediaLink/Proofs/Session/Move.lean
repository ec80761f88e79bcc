import MediaLink.Proofs.Session.Hearing
import MediaLink.Proofs.Session.Verdict

/-! The moves that the work of a session is made of. What can happen to a session is listed here
once; a fact about runs is proved for each move. -/
namespace MediaLink

namespace Act

/-- An act that tells the application something, or answers a lookup. -/
def IsReport {κ : Type} : Act κ → Prop
  | .lookup .. | .children .. | .item .. => True
  | _ => False

end Act

/-- What begins an attempt, or ends one on purpose in the given phase. -/
inductive Deed where
  | start
  | stop (phase : Phase)
  deriving DecidableEq

/-- The deeds of a session that is torn down. -/
def Session.stops {κ : Type} (s : Session κ) : List Deed :=
  if s.phase = .disconnected then [] else [.stop s.phase]

namespace World

variable {κ : Type}

/-- The token that is made next. -/
def nextToken (w : World κ) : Token := ⟨w.tokens + 1⟩

/-- The world with other subscriptions. -/
def withSubscriptions (subscriptions : Registry κ) (w : World κ) : World κ :=
  { w with session := { w.session with subscriptions } }

/-- What telling a connected provider puts on record. -/
def telling (call : Token → Call) (failure : Option RemoteFault) (s : Session κ) : List (Act κ) :=
  match s.live? with
  | some (p, token) => [.call p (call token) failure]
  | none => []

/-- What telling a connected provider leaves in the queue. -/
def complaint (failure : Option RemoteFault) (s : Session κ) : List (Event κ) :=
  match s.live? with
  | some (_, token) => echo token failure
  | none => []

/-- A connected provider has been told something, with the given outcome. -/
def tell (call : Token → Call) (failure : Option RemoteFault) (w : World κ) : World κ :=
  { w with
    queue := w.queue ++ complaint failure w.session
    history := telling call failure w.session ++ w.history }

/-- A provider has been handed a sink and asked to accept an attempt. -/
def ask (p : Provider) (token : Token) (failure : Option RemoteFault) (w : World κ) : World κ :=
  { w with
    session := { w.session with provider := some p }
    providerSinks := w.providerSinks ++ [⟨p, token⟩]
    history := .call p (.connect token) failure :: w.history }

/-- What saying goodbye to the provider that is held puts on record. -/
def farewell (failure : Option RemoteFault) (s : Session κ) : List (Act κ) :=
  match s.provider, s.attempt with
  | some p, some token => [.call p (.disconnect token) failure]
  | _, _ => []

/-- What releasing the binding that is held puts on record. -/
def unbinding (s : Session κ) : List (Act κ) :=
  match s.binding with
  | some token => [.unbind token]
  | none => []

/-- One move, with the deeds that it does. The loop and the handles stay as they are. -/
inductive Move : List Deed → World κ → World κ → Prop where
  | aside (w : World κ) (lookups requests remarks) :
      Move [] w { w with lookups, requests, remarks }
  | hear {w : World κ} {news} (h : ∀ e ∈ news, w.Foreign e) :
      Move [] w { w with queue := w.queue ++ news }
  | report (w : World κ) {a} (h : a.IsReport) : Move [] w (w.act a)
  | close {w : World κ} (h : w.session.phase = .disconnected) : Move [] w { w with queue := [] }
  | insert (w : World κ) (node options callback failure) :
      Move [] w ((w.withSubscriptions
        (w.session.subscriptions.insert node ⟨options⟩ callback)).tell
          (.add · node options) failure)
  | erase {w : World κ} {node options key callback} (failure)
      (h : w.session.subscriptions.find? node options = some (key, callback)) :
      Move [] w ((w.withSubscriptions (w.session.subscriptions.erase node options)).tell
        (.remove · node key.options) failure)
  | begin {w : World κ} {news} (granted) (h : w.session.phase = .disconnected)
      (hn : ∀ e ∈ news,
        Foreign { w with binderSinks := w.binderSinks ++ [w.nextToken] } e) :
      Move [.start] w
        { w with
          tokens := w.tokens + 1
          session := w.session.begin w.nextToken
          binderSinks := w.binderSinks ++ [w.nextToken]
          queue := w.queue ++ news ++ if granted then [] else [.bindRefused w.nextToken]
          history := .bind w.nextToken granted :: .started w.nextToken :: w.history }
  | letGo {w : World κ} (h : w.session.phase = .suspended) : Move [] w w.release
  | leave (w : World κ) (failure) :
      Move w.session.stops w
        { w with
          session := w.session.reset
          history := unbinding w.session ++
            (farewell failure w.session ++ .tornDown w.session.phase :: w.history) }
  | abort {w : World κ} (h : w.session.phase = .connecting) : Move [] w w.failAttempt
  | ignore {w : World κ} {e rest} (hq : w.queue = e :: rest)
      (h : w.session.verdict e = .ignore) : Move [] w { w with queue := rest }
  | fail {w : World κ} {e rest} (hq : w.queue = e :: rest) (h : w.session.verdict e = .fail) :
      Move [] w (failAttempt { w with queue := rest })
  | suspend {w : World κ} {e rest} (hq : w.queue = e :: rest)
      (h : w.session.verdict e = .suspend) :
      Move [] w (notify .suspended w.session.attempt
        { w with queue := rest, session := w.session.suspend })
  | reach {w : World κ} {e rest p token} (failure) (hq : w.queue = e :: rest)
      (h : w.session.verdict e = .reach p token) :
      Move [] w (ask p token failure { w with queue := rest })
  | restore {w : World κ} {e rest p} (failure) (hq : w.queue = e :: rest)
      (h : w.session.verdict e = .restore p) :
      Move [.start] w
        (ask p w.nextToken failure (startAttempt Session.resume { w with queue := rest }).1)
  | accept {w : World κ} {e rest sink reply token news} (t : Transport)
      (hq : w.queue = e :: rest) (h : w.session.verdict e = .accept sink reply token)
      (hn : ∀ x ∈ news, w.Foreign x ∨ ∃ fault, x = .lost sink.token fault)
      (he : ∀ p call failure,
        .call p call failure ∈ replayed t (w.session.complete reply.root token reply.extras) →
        ∀ x ∈ echo call.token failure, x ∈ news) :
      Move [] w
        { w with
          session := w.session.complete reply.root token reply.extras
          queue := rest ++ news
          history := .connection .connected w.session.attempt ::
            ((replayed t (w.session.complete reply.root token reply.extras)).reverse ++
              .accepted sink reply :: w.history) }

/-- Moves in a row, with all their deeds. -/
inductive Moves : List Deed → World κ → World κ → Prop where
  | refl (w : World κ) : Moves [] w w
  | head {u v w : World κ} {ds es} (h : Move ds u v) (hs : Moves es v w) : Moves (ds ++ es) u w

variable {u v w : World κ} {ds es : List Deed}

theorem Move.remark (w : World κ) (remarks : List (Remark κ)) : Move [] w { w with remarks } :=
  .aside w w.lookups w.requests remarks

theorem Move.one (h : Move ds u v) : Moves ds u v := by
  simpa using Moves.head h (.refl v)

theorem Moves.trans (h : Moves ds u v) (hs : Moves es v w) : Moves (ds ++ es) u w := by
  induction h with
  | refl => exact hs
  | head h _ ih => simpa using Moves.head h (ih hs)

theorem Moves.tail (h : Moves ds u v) (hm : Move es v w) : Moves (ds ++ es) u w := h.trans hm.one

/-- What every move keeps along with its deeds, a row of moves keeps. -/
theorem Moves.trace {P : List Deed → World κ → Prop}
    (hP : ∀ {ds es} {u v : World κ}, Move es u v → P ds u → P (ds ++ es) v)
    (h : Moves es u v) (hu : P ds u) : P (ds ++ es) v := by
  induction h generalizing ds with
  | refl => simpa using hu
  | head hm _ ih => simpa using ih (hP hm hu)

theorem Moves.keep {P : World κ → Prop} (hP : ∀ {ds} {u v : World κ}, Move ds u v → P u → P v)
    (h : Moves es u v) (hu : P u) : P v := by
  induction h with
  | refl => exact hu
  | head hm _ ih => exact ih (hP hm hu)

theorem release_eq (w : World κ) : w.release =
    { w with session := w.session.reset, history := unbinding w.session ++ w.history } := by
  simp only [release, unbinding]
  cases w.session.binding <;> rfl

theorem failAttempt_eq (w : World κ) : w.failAttempt =
    { w with
      session := w.session.reset
      history := .connection .failed w.session.attempt ::
        (unbinding w.session ++ w.history) } := by
  rw [failAttempt, release_eq]
  rfl

theorem Move.frame (h : Move ds u v) : v.loop = u.loop ∧ v.handles = u.handles := by
  cases h <;> simp [release_eq, failAttempt_eq, tell, withSubscriptions, act, notify, ask,
    startAttempt]

theorem Moves.frame (h : Moves ds u v) : v.loop = u.loop ∧ v.handles = u.handles := by
  induction h with
  | refl => exact ⟨rfl, rfl⟩
  | head h _ ih => exact ⟨ih.1.trans h.frame.1, ih.2.trans h.frame.2⟩

end World
end MediaLink
