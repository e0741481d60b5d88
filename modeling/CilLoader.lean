import CilLoader.Context.Debugging
import CilLoader.Context.Interfaces
import CilLoader.Module.Interning
import CilLoader.Table.Kind
import CilLoader.Proofs.Registry.FirstWins
import CilLoader.Proofs.Context.Loading
import CilLoader.Proofs.Context.Changes
import CilLoader.Proofs.Context.Invariant
import CilLoader.Proofs.Context.Runs
import CilLoader.Proofs.Resolution.Bounds
import CilLoader.Proofs.Resolution.Demands
import CilLoader.Proofs.Context.Repetition
import CilLoader.Proofs.Resolution.Endings
import CilLoader.Proofs.Bytes.Recovery
import CilLoader.Proofs.Table.Entries
import CilLoader.Proofs.Stream.WrittenTables
import CilLoader.Proofs.Resolution.Parametricity
import CilLoader.Proofs.Bytes.CompressedForms
import CilLoader.Proofs.Signature.WrittenForms
import CilLoader.Proofs.Signature.Reading
import CilLoader.Proofs.Bytes.Rounds
import CilLoader.Proofs.SequencePoint.Written
import CilLoader.Proofs.Table.Walk
import CilLoader.Proofs.Module.Definitions
import CilLoader.Proofs.Module.Names
import CilLoader.Proofs.Resolution.Forwarding
import CilLoader.Proofs.Context.Tables
import CilLoader.Proofs.Resolution.LoadOrder
import CilLoader.Proofs.Context.Symbols
import CilLoader.Proofs.Context.SystemModule
import CilLoader.Proofs.Resolution.OwnNames
import CilLoader.Proofs.Strict.Queries
import CilLoader.Proofs.Bytes.CompressedTokens
import CilLoader.Proofs.Stream.WrittenRoot
import CilLoader.Proofs.Context.Preloading
import CilLoader.Proofs.Table.Gaps
import CilLoader.Proofs.Table.Blocks
import CilLoader.Proofs.Context.PathLoading
import CilLoader.Proofs.TypeDesc.Substitution
import CilLoader.Proofs.Table.ListRanges
import CilLoader.Proofs.Module.MethodOwners
import CilLoader.Proofs.Stream.WrittenImage
import CilLoader.Proofs.Context.ArrayClass
import CilLoader.Proofs.Context.RuntimeInterfaces
import CilLoader.Proofs.Resolution.Arity
import CilLoader.Proofs.Table.KeyedRows
import CilLoader.Proofs.Module.SameSource
import CilLoader.Proofs.Module.Interning
import CilLoader.Proofs.Module.NameIndex
import CilLoader.Proofs.Resolution.ScopeChains
import CilLoader.Proofs.Table.Divisions
import CilLoader.Proofs.SequencePoint.Decoded
import CilLoader.Proofs.Signature.Nesting
import CilLoader.Proofs.Signature.Extent
import CilLoader.Proofs.Resolution.ArrayRanks
import CilLoader.Proofs.Bytes.CompressedReads
import CilLoader.Proofs.Table.IndexWidths
import CilLoader.Proofs.Identity.Grammar
import CilLoader.Proofs.Heap.WrittenHeaps
import CilLoader.Proofs.Heap.Lookups
import CilLoader.Proofs.Bytes.CursorRuns
import CilLoader.Proofs.Metadata.DocumentNames
import CilLoader.Proofs.Module.ParameterNames
import CilLoader.Proofs.Table.RepeatedCalls
import CilLoader.Proofs.Executable.Sections
