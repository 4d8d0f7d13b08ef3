/-! Lengths of time, in nanoseconds. -/
namespace Playscript

structure Duration where
  nanos : Nat
deriving DecidableEq, Repr, Inhabited

namespace Duration

def zero : Duration := ⟨0⟩

instance : Add Duration := ⟨fun a b => ⟨a.nanos + b.nanos⟩⟩

def ofMillis (ms : Nat) : Duration := ⟨ms * 1000000⟩

def secs (d : Duration) : Nat := d.nanos / 1000000000

/-- What is left after the whole seconds, in nanoseconds. -/
def subsecNanos (d : Duration) : Nat := d.nanos % 1000000000

def millis (d : Duration) : Nat := d.nanos / 1000000

def since (later earlier : Duration) : Duration := ⟨later.nanos - earlier.nanos⟩

end Duration

end Playscript
