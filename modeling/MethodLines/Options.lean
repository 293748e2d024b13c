import MethodLines.Settings

/-! What a user asks of one run over signatures, and how it overrides the
settings. -/
namespace MethodLines

structure Options where
  signatures : List Text := []
  input : Option Text := none
  format : Option Format := none
  output : Option Text := none
  failFast : Bool := false
  sequential : Bool := false
  plain : Bool := false
deriving DecidableEq

/-- The settings of a run: an option that is given wins. Options can only ask for
failing fast, not for going on. -/
def Options.override (o : Options) (s : Settings) : Settings where
  input := s.input
  batch :=
    { parallel := s.batch.parallel && !o.sequential
      failFast := s.batch.failFast || o.failFast }
  output :=
    { format := o.format <|> s.output.format
      color := if o.plain then some false else s.output.color }

end MethodLines
