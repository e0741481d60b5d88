import CilLoader.Proofs.Strict.Decoders
import CilLoader.SequencePoint
import CilLoader.Signature.Decoder

/-!
# Strict runs over blobs

Signatures and sequence points are read by decoders, so their reads stay inside the blob.
-/

namespace CilLoader

namespace Decoder.Guarded

/-! ## Signatures -/

section Signatures

variable {decoder : Decoder α} {type : Decoder TypeSignature}

def modifiersUpTo : (bound : Nat) → Guarded (modifiersUpTo bound)
  | 0 => succeed ()
  | bound + 1 =>
    .andThen hasMore fun _ => branch
      (.andThen peek fun _ => branch
        (.andThen byte fun _ => .andThen compressedToken fun _ => modifiersUpTo bound)
        (succeed ()))
      (succeed ())

def modifiers : Guarded modifiers :=
  .measured modifiersUpTo

def counted (guarded : Guarded decoder) : Guarded (counted decoder) :=
  .andThen compressed fun count => times guarded count

def parameter (guarded : Guarded type) : Guarded (parameter type) :=
  .andThen peek fun _ => branch (.andThen byte fun _ => guarded) guarded

def methodOver (guarded : Guarded type) : Guarded (methodOver type) :=
  .andThen byte fun _ =>
    either compressed (succeed 0) fun _ =>
      .andThen compressed fun count =>
        .andThen guarded fun _ =>
          .andThen (times (parameter guarded) count) fun _ => succeed _

def arrayOver (guarded : Guarded type) : Guarded (arrayOver type) :=
  .andThen guarded fun _ =>
    .andThen compressed fun _ =>
      .andThen (counted compressed) fun _ =>
        .andThen (counted compressedSigned) fun _ => succeed _

def genericOver (guarded : Guarded type) : Guarded (genericOver type) :=
  .andThen byte fun head =>
    match NominalKind.ofCode? head with
    | none => fail _
    | some _ =>
      .andThen compressedToken fun _ =>
        .andThen compressed fun count => branch (fail _)
          (.andThen (times guarded count) fun _ => succeed _)

def typeBody (guarded : Guarded type) (code : Nat) : Guarded (typeBody type code) := by
  unfold Decoder.typeBody
  exact match PrimitiveType.ofCode? code, NominalKind.ofCode? code with
    | some _, _ => succeed _
    | none, some _ => .andThen compressedToken fun _ => succeed _
    | none, none =>
      branch (.andThen guarded fun _ => succeed _) <|
      branch (.andThen guarded fun _ => succeed _) <|
      branch (.andThen guarded fun _ => succeed _) <|
      branch (.andThen guarded fun _ => succeed _) <|
      branch (.andThen compressed fun _ => succeed _) <|
      branch (.andThen compressed fun _ => succeed _) <|
      branch (arrayOver guarded) <|
      branch (genericOver guarded) <|
      branch (.andThen (methodOver guarded) fun _ => succeed _) (fail _)

def typeWithin : (room : Nat) → Guarded (typeWithin room)
  | 0 => fail _
  | room + 1 =>
    .andThen modifiers fun _ => .andThen byte fun code => typeBody (typeWithin room) code

def typeSignature : Guarded typeSignature :=
  typeWithin (SignatureCode.depthLimit - 1)

def methodSignature : Guarded methodSignature :=
  methodOver (typeWithin (SignatureCode.depthLimit - 1))

end Signatures

/-! ## Sequence points -/

def extent : Guarded SequencePoints.extent :=
  .andThen compressed fun _ => branch
    (.andThen compressed fun _ => succeed _) (.andThen compressedSigned fun _ => succeed _)

def moved (value : Nat) : Guarded (SequencePoints.moved value) :=
  .andThen compressedSigned fun _ => branch (succeed _) (fail _)

def spanStart : (last : Option (Nat × Nat)) → Guarded (SequencePoints.spanStart last)
  | none => .andThen compressed fun _ => .andThen compressed fun _ => succeed _
  | some (line, column) => .andThen (moved line) fun _ => .andThen (moved column) fun _ => succeed _

def point (progress : SequencePoints.Progress) (ilOffset : Nat) :
    Guarded (SequencePoints.point progress ilOffset) :=
  .andThen extent fun (_, _) => branch (succeed _)
    (.andThen (spanStart progress.start) fun _ => .andThen (ofExcept _) fun _ => succeed _)

def record (progress : SequencePoints.Progress) : Guarded (SequencePoints.record progress) :=
  .andThen compressed fun advance =>
    match progress.ilOffset with
    | none => point progress advance
    | some ilOffset =>
      branch (.andThen compressed fun _ => succeed _)
        (branch (point progress (ilOffset + advance)) (fail _))

def sequencePoints (document : Nat) : Guarded (SequencePoints.decoder document) :=
  .andThen hasMore fun _ => branch
    (.andThen compressed fun _ =>
      either compressed (succeed document) fun _ =>
        .andThen (untilEnd record _) fun _ => succeed _)
    (succeed _)

end Decoder.Guarded

end CilLoader
