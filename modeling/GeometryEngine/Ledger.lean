import GeometryEngine.Sink

/-!
# A receiver under record

Any receiver, together with a record of the commands that were submitted to it and
of what became of each. Nobody notices the record: all answers are those of the
receiver.
-/

namespace GeometryEngine

/-- A receiver and the record of its commands. -/
structure Ledger (σ : Type) where
  /-- The receiver. -/
  receiver : σ
  /-- The commands that were submitted, each with its verdict, the oldest first. -/
  entries : List (Command × Verdict) := []
  deriving DecidableEq, Inhabited

namespace Ledger

variable {σ : Type} [Sink σ]

instance : Sink (Ledger σ) where
  submit l c :=
    let answer := Sink.submit l.receiver c
    (answer.1, ⟨answer.2, l.entries ++ [(c, answer.1)]⟩)
  notify l n := { l with receiver := Sink.notify l.receiver n }

/-- Every command that was submitted is recorded with its verdict. -/
theorem entries_submit (l : Ledger σ) (c : Command) :
    (Sink.submit l c).2.entries = l.entries ++ [(c, (Sink.submit l c).1)] := rfl

@[simp] theorem entries_notify (l : Ledger σ) (n : Notice) :
    (Sink.notify l n).entries = l.entries := rfl

/-- The commands that were submitted, the oldest first. -/
def commands (l : Ledger σ) : List Command := l.entries.map Prod.fst

/-- Whether every command was accepted. -/
def IsAccepted (l : Ledger σ) : Prop := ∀ entry ∈ l.entries, entry.2 = .accepted

end Ledger

end GeometryEngine
