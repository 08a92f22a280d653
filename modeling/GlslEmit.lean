import GlslEmit.ShaderType.Equality
import GlslEmit.Program.Command
import GlslEmit.Proofs.Emitter.Transition
import GlslEmit.Proofs.Program.Transition
import GlslEmit.Proofs.Emitter.Region
import GlslEmit.Proofs.Emitter.Activation
import GlslEmit.Proofs.Emitter.Rendering
import GlslEmit.Proofs.Program.Rendering
import GlslEmit.Proofs.Body.Parse
import GlslEmit.Proofs.Body.Origin
import GlslEmit.Proofs.Body.Visibility
import GlslEmit.Proofs.Body.Unpacking
import GlslEmit.Proofs.Program.PushConstants
import GlslEmit.Proofs.Program.Registration
import GlslEmit.Proofs.Program.Structs
import GlslEmit.Proofs.Emitter.Isolation
import GlslEmit.Proofs.Emitter.Lifecycle
import GlslEmit.Proofs.Resource.Table
import GlslEmit.Proofs.Emitter.Tables
import GlslEmit.Proofs.Emitter.DescriptorType
import GlslEmit.Proofs.Emitter.Varying
import GlslEmit.Proofs.Emitter.Commutation
import GlslEmit.Proofs.Program.Globals
import GlslEmit.Proofs.Program.Discarded
import GlslEmit.Proofs.Emitter.Identifiers
import GlslEmit.Proofs.Program.Identifiers
import GlslEmit.Proofs.Emitter.Completeness
import GlslEmit.Proofs.Emitter.Signedness
import GlslEmit.Proofs.Emitter.SubIndex
import GlslEmit.Proofs.Emitter.Blocks
import GlslEmit.Proofs.Emitter.Struct
import GlslEmit.Proofs.Body.Store
import GlslEmit.Proofs.TypeTable.History
import GlslEmit.Proofs.Scope.History
import GlslEmit.Proofs.Spelling.Value
import GlslEmit.Proofs.Resource.IndexMask
