import PamSshAgent.Rust.Text

/-!
# Time

`Instant` and `Duration` are numbers of nanoseconds.
-/

namespace PamSshAgent

/-- `Instant`, in nanoseconds. -/
abbrev Instant := ℕ

/-- `Duration`, in nanoseconds. -/
abbrev Duration := ℕ

namespace Duration

/-- `Duration::from_secs`. -/
def fromSecs (seconds : ℕ) : Duration := seconds * 10 ^ 9

/-- `Duration::as_millis`. -/
def asMillis (duration : Duration) : ℕ := duration / 10 ^ 6

/-- A number with a fractional part of the given width, without zeros at its end. -/
def decimal (whole fraction width : ℕ) (unit : Text) : Text :=
  let digits := Nat.toDigits 10 fraction
  let padded := List.replicate (width - digits.length) '0' ++ digits
  Nat.toDigits 10 whole ++
    (if fraction = 0 then [] else '.' :: padded.rdropWhile (· = '0')) ++ unit

/-- `Duration` as `Debug` writes it. -/
def debug (duration : Duration) : Text :=
  if 10 ^ 9 ≤ duration then decimal (duration / 10 ^ 9) (duration % 10 ^ 9) 9 "s"
  else if 10 ^ 6 ≤ duration then decimal (duration / 10 ^ 6) (duration % 10 ^ 6) 6 "ms"
  else if 10 ^ 3 ≤ duration then decimal (duration / 10 ^ 3) (duration % 10 ^ 3) 3 "µs"
  else decimal duration 0 0 "ns"

example : debug (fromSecs 10) = "10s".toList := by decide +kernel

end Duration

end PamSshAgent
