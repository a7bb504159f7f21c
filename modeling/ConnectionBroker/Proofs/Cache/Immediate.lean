import ConnectionBroker.Proofs.Cache.Keeping
import ConnectionBroker.Proofs.Cache.Progress

/-! # Constructions that never wait

Where every construction finishes in the step that starts it, no call stays pending. A first poll
then finds the live connection of its key or runs the constructor of its own job to its end.
-/

namespace ConnectionBroker

variable {σ κ γ ι π ε : Type}

/-- Every construction finishes in the step that starts it. -/
def Builder.Immediate (builder : Builder σ ι π γ ε) : Prop :=
  ∀ job world rest, (builder.start job world).1 ≠ .waiting rest

namespace Desk

variable {builder : Builder σ ι π γ ε} {desk : Desk γ ι π}

/-- Where nobody stands in line, nobody does after a first poll. -/
theorem line_begin_of_immediate (hbuilder : builder.Immediate) (hline : desk.line = [])
    (live : γ → Bool) (job : ι) (world : σ) :
    (desk.begin builder live job world).2.line = [] := by
  obtain ⟨found, line⟩ := desk
  obtain rfl : line = [] := hline
  cases found with
  | some connection => rfl
  | none =>
      simp only [begin, enter, List.nil_append, pollFirst]
      cases hprogress : (builder.start job world).1 with
      | done connection => rfl
      | failed cause => rfl
      | waiting rest => exact absurd hprogress (hbuilder job world rest)

end Desk

namespace Cache

variable [DecidableEq κ] {cache : Cache κ γ ι π} {builder : Builder σ ι π γ ε}

/-- A sound cache in which no call is pending. -/
structure Settled (cache : Cache κ γ ι π) : Prop where
  sound : cache.Sound
  nobody : ∀ key, cache.callsUnder key = []

theorem settled_empty : Settled ({} : Cache κ γ ι π) :=
  ⟨sound_empty, fun _ => rfl⟩

/-- How a first poll ends: with the live connection that it finds, or as far as the constructor of
its job comes. It stores nothing but what it constructs. -/
structure Ends (builder : Builder σ ι π γ ε) (live : γ → Bool) (cache : Cache κ γ ι π) (key : κ)
    (job : ι) (world : σ) (begun : Begun σ κ γ ι π ε) : Prop where
  settled : begun.cache.Settled
  answered :
    (∃ connection, cache.observed? key = some connection ∧ begun.answer = .hit connection ∧
      begun.world = world) ∨
    begun.answer = (builder.start job world).1.answer ∧ begun.world = (builder.start job world).2
  recorded : ∀ other connection, begun.cache.observed? other = some connection →
    cache.observed? other = some connection ∨ begun.answer = .built connection

theorem Settled.begin (h : cache.Settled) (hbuilder : builder.Immediate) (live : γ → Bool)
    (key : κ) (job : ι) (world : σ) :
    Ends builder live cache key job world (cache.begin builder live key job world) := by
  have hsound := h.sound
  have hdesk := hsound.desk_begin builder live key job world
  have hnobody : (cache.desk live key).line = [] := by rw [desk, h.nobody, List.map_nil]
  refine ⟨⟨hsound.begin builder live key job world, fun other => ?_⟩, ?_, ?_⟩
  · -- The line of another key stays empty, and that of the key itself is empty again.
    apply List.map_eq_nil_iff.mp
    change ((cache.begin builder live key job world).cache.desk live other).line = []
    by_cases hkey : other = key
    · subst hkey
      rw [(Prod.mk.inj hdesk).2]
      exact Desk.line_begin_of_immediate hbuilder hnobody live job world
    · rw [hsound.desk_begin_of_ne builder live hkey job world, desk, h.nobody, List.map_nil]
  · cases hfound : cache.get? live key with
    | some connection =>
        have hlive := (Agrees.refl live cache).liveIn?_slotFor hsound key
        rw [← get?_eq_filter, hfound] at hlive
        rw [get?_eq_filter, Option.filter_eq_some_iff] at hfound
        rw [begin_of_live hlive]
        exact .inl ⟨connection, hfound.1, rfl, rfl⟩
    | none =>
        have hidle : ¬ cache.InUse live key := by simp [InUse, h.nobody, hfound]
        have hstarts := hsound.starts?_begin_of_not_inUse hidle job world
        have hran := hsound.begin_of_starts? builder hstarts
        exact .inr ⟨hran.1, hran.2.1⟩
  · intro other connection hobserved
    exact Answer.of_record (((Agrees.refl live cache).begin hsound builder key job world).recorded
      other connection hobserved)

end Cache

end ConnectionBroker
