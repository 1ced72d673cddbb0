import EvmDisasm.Basic
import EvmDisasm.Code.HexText
import EvmDisasm.Code.Source
import EvmDisasm.CommandLine
import EvmDisasm.CommandLine.Arguments
import EvmDisasm.Datum
import EvmDisasm.Datum.Reading
import EvmDisasm.Decimal.Shortest
import EvmDisasm.Digest
import EvmDisasm.Digest.Keccak
import EvmDisasm.Disassembler
import EvmDisasm.Disassembler.History
import EvmDisasm.Listing.Reassembly
import EvmDisasm.Disassembler.Sink
import EvmDisasm.Files
import EvmDisasm.Files.Path
import EvmDisasm.Files.Tree
import EvmDisasm.Hex
import EvmDisasm.Hex.Spelling
import EvmDisasm.Instruction
import EvmDisasm.Instruction.Cursor
import EvmDisasm.Instruction.Encoding
import EvmDisasm.JumpTable
import EvmDisasm.Listing
import EvmDisasm.Listing.Datum
import EvmDisasm.Log
import EvmDisasm.Main
import EvmDisasm.Opcode
import EvmDisasm.Opcode.Lemmas
import EvmDisasm.Run
import EvmDisasm.Settings
import EvmDisasm.Text
import EvmDisasm.Text.Unprintable
import EvmDisasm.Toml.DateTime
import EvmDisasm.Toml.Document
import EvmDisasm.Toml.Key
import EvmDisasm.Toml.Number
import EvmDisasm.Toml.Quoted
import EvmDisasm.Toml.Spacing
import EvmDisasm.Toml.Table
import EvmDisasm.Toml.Value
import EvmDisasm.Proofs.Code.HexText
import EvmDisasm.Proofs.Code.Source
import EvmDisasm.Proofs.Code.Spelling
import EvmDisasm.Proofs.Digest.AsCode
import EvmDisasm.Proofs.Digest.Spelling
import EvmDisasm.Proofs.Disassembler.History
import EvmDisasm.Proofs.Disassembler.Printed
import EvmDisasm.Proofs.Disassembler.PushData
import EvmDisasm.Proofs.Disassembler.Sweep
import EvmDisasm.Proofs.Hex.Body
import EvmDisasm.Proofs.Hex.Spelling
import EvmDisasm.Proofs.Hex.Texts
import EvmDisasm.Proofs.Instruction.Append
import EvmDisasm.Proofs.Instruction.Mnemonic
import EvmDisasm.Proofs.Instruction.Reading
import EvmDisasm.Proofs.Instruction.RoundTrip
import EvmDisasm.Proofs.Instruction.Sweep
import EvmDisasm.Proofs.Instruction.Tiling
import EvmDisasm.Proofs.Instruction.Walk
import EvmDisasm.Proofs.JumpTable.Append
import EvmDisasm.Proofs.JumpTable.Destinations
import EvmDisasm.Proofs.JumpTable.Padding
import EvmDisasm.Proofs.Listing.Reassembly
import EvmDisasm.Proofs.Run.Acceptance
import EvmDisasm.Proofs.Run.Channels
import EvmDisasm.Proofs.Run.Stages
import EvmDisasm.Proofs.Text.Trim
import EvmDisasm.Checked
import EvmDisasm.Checked.Decoding
import EvmDisasm.Proofs.Bytes.BigEndian
import EvmDisasm.Proofs.Instruction.PushValue
import EvmDisasm.Proofs.Instruction.Bounds
import EvmDisasm.Proofs.Disassembler.Records
import EvmDisasm.Proofs.Disassembler.Append
import EvmDisasm.Proofs.Instruction.Count
import EvmDisasm.Proofs.JumpTable.Views
import EvmDisasm.Proofs.Disassembler.Printing
import EvmDisasm.Listing.Spelling
import EvmDisasm.Proofs.Datum.Reading
import EvmDisasm.Proofs.Listing.Spelling
import EvmDisasm.Proofs.Bytes.Order
import EvmDisasm.Proofs.Digest.Order
import EvmDisasm.Proofs.Files.Path
import EvmDisasm.Proofs.Files.Tree
import EvmDisasm.Proofs.Files.Making
import EvmDisasm.Proofs.Disassembler.Writing
