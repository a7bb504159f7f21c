import ConnectionBroker.Proofs.Broker.Told
import ConnectionBroker.Proofs.Cache.Immediate

/-! # Sessions whose drivers never wait

Where no construction waits, every resolution is answered at once: with a connection that the cache
observes already, or as far as the driver comes. No call is ever left pending.
-/

namespace ConnectionBroker.Session

variable {δ σ π γ : Type} {backend : Backend δ σ π γ} {session : Session δ σ π γ}

/-- A resolution that is answered at once. The cache observes nothing new but the connection that
was built. -/
structure Resolves (backend : Backend δ σ π γ) (session : Session δ σ π γ) (request : Request)
    (threads : Option Nat) (result : Answer γ Fault × Session δ σ π γ) : Prop where
  broker_eq : result.2.broker = session.broker
  settled : result.2.cache.Settled
  answered :
    (∃ connection, session.cache.observed? request.key = some connection ∧
      result.1 = .hit connection ∧ result.2.site = session.site) ∨
    result.1 =
        ((session.broker.builder backend).start { request, threads } session.site).1.answer ∧
      result.2.site = ((session.broker.builder backend).start { request, threads } session.site).2
  recorded : ∀ key connection, result.2.cache.observed? key = some connection →
    session.cache.observed? key = some connection ∨ result.1 = .built connection

theorem resolves_connect (h : session.cache.Settled)
    (hbuilder : (session.broker.builder backend).Immediate) (name : String) (request : Request)
    (threads : Option Nat) :
    session.Resolves backend request threads (session.connect backend name request threads) := by
  obtain ⟨hanswer, hsite⟩ := session.receiveDirect_eq name
    ((session.broker.builder backend).start { request, threads } session.site)
  have hsame : (session.connect backend name request threads).2.broker = session.broker ∧
      (session.connect backend name request threads).2.cache = session.cache := by
    unfold connect
    generalize hstart :
      (session.broker.builder backend).start { request, threads } session.site = result
    obtain ⟨progress, site⟩ := result
    cases progress with
    | done connection => exact ⟨broker_receive .., cache_receive ..⟩
    | failed fault => exact ⟨rfl, rfl⟩
    | waiting rest => exact absurd (congrArg Prod.fst hstart) (hbuilder _ _ rest)
  refine ⟨hsame.1, ?_, .inr ⟨hanswer, hsite⟩, fun key connection hobserved => .inl ?_⟩
  · rw [hsame.2]
    exact h
  · rwa [hsame.2] at hobserved

theorem resolves_resolveShared [Numbered γ] (h : session.cache.Settled)
    (hbuilder : (session.broker.builder backend).Immediate) (name : String) (request : Request)
    (threads : Option Nat) :
    session.Resolves backend request threads
      (session.resolveShared backend name request threads) := by
  have hends := h.begin hbuilder session.isLive request.key { request, threads } session.site
  obtain ⟨hanswer, hsite⟩ := session.resolveShared_eq backend name request threads
  have hsame : (session.resolveShared backend name request threads).2.broker = session.broker ∧
      (session.resolveShared backend name request threads).2.cache =
        (session.begun backend request.key { request, threads }).cache := by
    simp only [resolveShared]
    split
    · next hpending =>
        -- No call is pending where no construction waits.
        rcases hends.answered with ⟨connection, -, hhit, -⟩ | ⟨hran, -⟩
        · rw [hhit] at hpending
          cases hpending
        · rw [hran] at hpending
          cases hprogress : ((session.broker.builder backend).start { request, threads }
              session.site).1 with
          | waiting rest => exact absurd hprogress (hbuilder _ _ rest)
          | _ =>
              rw [hprogress] at hpending
              cases hpending
    · exact ⟨broker_receive .., cache_receive ..⟩
  refine ⟨hsame.1, ?_, ?_, ?_⟩
  · rw [hsame.2]
    exact hends.settled
  · rw [hanswer, hsite]
    exact hends.answered
  · rw [hsame.2, hanswer]
    exact hends.recorded

/-- Every resolution is answered at once, shared or not. -/
theorem resolves_resolve [Numbered γ] (h : session.cache.Settled)
    (hbuilder : (session.broker.builder backend).Immediate) (name : String) (request : Request)
    (options : CallOptions) :
    session.Resolves backend request options.threads
      (session.resolve backend name request options) := by
  unfold resolve
  split
  · exact resolves_resolveShared h hbuilder name request options.threads
  · exact resolves_connect h hbuilder name request options.threads

end ConnectionBroker.Session
