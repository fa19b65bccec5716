/-!
# Ticks at intervals

A ticker comes due at its start and then once in every period. A tick that is taken more than a few
milliseconds late shifts the later ones, so that two ticks are never closer than a period.
-/

namespace WindowJoin

/-- A ticker: its period and the time at which it is due next. -/
structure Ticker where
  period : Nat
  due : Nat
  deriving DecidableEq, Repr

namespace Ticker

/-- The milliseconds by which a tick may be late without a shift of the later ones. -/
def tolerance : Nat := 5

/-- A ticker that is due at once. -/
def start (period now : Nat) : Ticker :=
  ⟨period, now⟩

/-- The ticker after a tick has been taken. -/
def tick (ticker : Ticker) (now : Nat) : Ticker :=
  { ticker with due := (if ticker.due + tolerance < now then now else ticker.due) + ticker.period }

end Ticker

end WindowJoin
