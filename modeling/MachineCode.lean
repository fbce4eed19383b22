import MachineCode.Address.Grammar
import MachineCode.Inspect.State
import MachineCode.Json.Instances
import MachineCode.Session.Basic
import MachineCode.X86.Meaning
import MachineCode.X86.Writing
import MachineCode.X86.Legality
import MachineCode.Proofs.X86.Fields
import MachineCode.Proofs.Results
import MachineCode.Proofs.X86.Addresses
import MachineCode.Proofs.X86.Forms
import MachineCode.Proofs.X86.Readings
import MachineCode.Proofs.X86.Operations
import MachineCode.Proofs.X86.Branches
import MachineCode.Proofs.X86.OperandSizes
import MachineCode.Proofs.Session.Encoding
import MachineCode.Proofs.Request.Slots
import MachineCode.Proofs.Session.Runs
import MachineCode.Proofs.X86.Tables
import MachineCode.Proofs.Session.UnknownNames
import MachineCode.Proofs.Address.Rendering
import MachineCode.Proofs.Session.Pushes
import MachineCode.Proofs.Session.Determinism
import MachineCode.Proofs.Session.Queries
import MachineCode.Proofs.Session.History
import MachineCode.Proofs.X86.MemoryForms
import MachineCode.Proofs.X86.UnusedScales
import MachineCode.Proofs.Address.Descriptors
import MachineCode.Proofs.Address.Faults
import MachineCode.Proofs.Session.Routes
import MachineCode.Proofs.X86.Fieldwise
import MachineCode.Proofs.X86.WrittenForms
import MachineCode.Proofs.X86.Delivery
import MachineCode.Proofs.Json.Lexer
import MachineCode.Proofs.Json.Parser
import MachineCode.Proofs.X86.AluOperands
import MachineCode.Proofs.Json.Forms
import MachineCode.Proofs.X86.Shapes
import MachineCode.Proofs.X86.Answers
import MachineCode.Proofs.X86.Immediates
import MachineCode.Proofs.X86.Refusals
import MachineCode.Proofs.X86.Displacements
import MachineCode.Proofs.X86.LegacyRegisters
import MachineCode.Proofs.Session.Handover
import MachineCode.Proofs.Session.Acceptance
import MachineCode.Proofs.Session.Interchange
import MachineCode.Proofs.Session.Output
import MachineCode.Proofs.Session.Logging
import MachineCode.Proofs.X86.RequestTexts
