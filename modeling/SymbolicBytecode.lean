import SymbolicBytecode.ClassFile.Basic
import SymbolicBytecode.ClassFile.Constant
import SymbolicBytecode.ClassFile.Dump
import SymbolicBytecode.ClassFile.Outline
import SymbolicBytecode.ClassFile.Reader
import SymbolicBytecode.CommandLine.Arguments
import SymbolicBytecode.CommandLine.Run
import SymbolicBytecode.Configuration.Basic
import SymbolicBytecode.Decimal.Binary
import SymbolicBytecode.Decimal.Shortest
import SymbolicBytecode.Decimal.Style
import SymbolicBytecode.Descriptor.FieldType
import SymbolicBytecode.Descriptor.Method
import SymbolicBytecode.Descriptor.Signature
import SymbolicBytecode.Event
import SymbolicBytecode.Execution.Engine
import SymbolicBytecode.Execution.Error
import SymbolicBytecode.Execution.Initialization
import SymbolicBytecode.Execution.Invocation
import SymbolicBytecode.Execution.Oracle
import SymbolicBytecode.Execution.Throwing
import SymbolicBytecode.Fault
import SymbolicBytecode.Files
import SymbolicBytecode.Frame
import SymbolicBytecode.Heap
import SymbolicBytecode.Hierarchy.Basic
import SymbolicBytecode.Hierarchy.Bootstrap
import SymbolicBytecode.Hierarchy.Chain
import SymbolicBytecode.Hierarchy.Resolution
import SymbolicBytecode.Hierarchy.Selection
import SymbolicBytecode.Hierarchy.Subtyping
import SymbolicBytecode.Inspection
import SymbolicBytecode.Instruction
import SymbolicBytecode.Loading.Classpath
import SymbolicBytecode.Loading.Error
import SymbolicBytecode.Main
import SymbolicBytecode.PathCondition
import SymbolicBytecode.Proofs.Abandonment
import SymbolicBytecode.Proofs.Allocation
import SymbolicBytecode.Proofs.BootstrapClasses
import SymbolicBytecode.Proofs.Capacity
import SymbolicBytecode.Proofs.Cascade
import SymbolicBytecode.Proofs.Chains
import SymbolicBytecode.Proofs.Changes
import SymbolicBytecode.Proofs.Closure
import SymbolicBytecode.Proofs.Deferral
import SymbolicBytecode.Proofs.Exclusion
import SymbolicBytecode.Proofs.Frames
import SymbolicBytecode.Proofs.Initialization
import SymbolicBytecode.Proofs.InitializerFrames
import SymbolicBytecode.Proofs.Invocation
import SymbolicBytecode.Proofs.Literals
import SymbolicBytecode.Proofs.Liveness
import SymbolicBytecode.Proofs.Phases
import SymbolicBytecode.Proofs.Preparation
import SymbolicBytecode.Proofs.References
import SymbolicBytecode.Proofs.Resolutions
import SymbolicBytecode.Proofs.Runs
import SymbolicBytecode.Proofs.Selection
import SymbolicBytecode.Proofs.Sequencing
import SymbolicBytecode.Proofs.Staging
import SymbolicBytecode.Proofs.StaticStore
import SymbolicBytecode.Proofs.Unwinding
import SymbolicBytecode.Session
import SymbolicBytecode.State.Allocation
import SymbolicBytecode.State.Assumptions
import SymbolicBytecode.State.Basic
import SymbolicBytecode.State.Calls
import SymbolicBytecode.State.Statics
import SymbolicBytecode.State.Unwinding
import SymbolicBytecode.Table
import SymbolicBytecode.Text.ModifiedUtf8
import SymbolicBytecode.Text.Numeral
import SymbolicBytecode.Text.Quoted
import SymbolicBytecode.Text.Utf16
import SymbolicBytecode.Text.Visible
import SymbolicBytecode.Throwable
import SymbolicBytecode.Value
import SymbolicBytecode.Yaml.Character
import SymbolicBytecode.Yaml.Document
import SymbolicBytecode.Yaml.Layout
import SymbolicBytecode.Yaml.Node
import SymbolicBytecode.Yaml.Scalar
import SymbolicBytecode.Yaml.Token
import SymbolicBytecode.Yaml.Value
import SymbolicBytecode.Proofs.ThrowingCalls
import SymbolicBytecode.Proofs.KindAgreement
import SymbolicBytecode.Proofs.Readers
import SymbolicBytecode.Proofs.ModifiedUtf8
import SymbolicBytecode.Proofs.ClassLayout
import SymbolicBytecode.Proofs.Loader
import SymbolicBytecode.Proofs.Loadable
import SymbolicBytecode.Proofs.SoundLoading
import SymbolicBytecode.Proofs.LoadingOrder
import SymbolicBytecode.Proofs.Supertypes
import SymbolicBytecode.Proofs.EnumForcing
import SymbolicBytecode.Proofs.Superclasses
import SymbolicBytecode.Proofs.Overriding
import SymbolicBytecode.Proofs.MethodResolution
import SymbolicBytecode.Proofs.SpecialCalls
import SymbolicBytecode.Proofs.SelectionAgreement
import SymbolicBytecode.Proofs.VirtualSelection
import SymbolicBytecode.Proofs.Subtyping
import SymbolicBytecode.Proofs.CallReturn
import SymbolicBytecode.Proofs.HandleCalls
import SymbolicBytecode.Proofs.PoolSlots
import SymbolicBytecode.Proofs.Atomicity
import SymbolicBytecode.Proofs.Climbing
import SymbolicBytecode.Proofs.Locality
import SymbolicBytecode.Proofs.Inquiries
import SymbolicBytecode.Proofs.Descriptors
import SymbolicBytecode.Proofs.ByteGroups
import SymbolicBytecode.Proofs.PoolBuilding
import SymbolicBytecode.Proofs.Interning
import SymbolicBytecode.Proofs.HandlerSearches
import SymbolicBytecode.Proofs.SupertypeSearch
import SymbolicBytecode.Proofs.SuperclassWalks
import SymbolicBytecode.Proofs.ArgumentSlots
