import LiveShader.Machine.Log
import LiveShader.Main
import LiveShader.Proofs.Program.Agreement
import LiveShader.Proofs.Source.Assembly
import LiveShader.Proofs.Source.LineWise
import LiveShader.Proofs.Window.Custody
import LiveShader.Proofs.Window.History
import LiveShader.Proofs.Program.Outcomes
import LiveShader.Proofs.Uniform.Memo
import LiveShader.Proofs.Files.Walking
import LiveShader.Proofs.Text.ByteOrder
import LiveShader.Proofs.Store.Completeness
import LiveShader.Proofs.Console.Typing
import LiveShader.Proofs.Files.Writing
import LiveShader.Proofs.Console.Preview
import LiveShader.Proofs.Console.Transcript
import LiveShader.Proofs.GlVersion
import LiveShader.Proofs.Size
import LiveShader.Proofs.Config.Overrides
import LiveShader.Proofs.Program.Idle
import LiveShader.Proofs.Source.Reads
import LiveShader.Proofs.Window.Face
import LiveShader.Proofs.Source.Concatenation
import LiveShader.Proofs.Machine.Undoing
import LiveShader.Proofs.Program.Atomic
import LiveShader.Proofs.Source.Stability
import LiveShader.Proofs.Uniform.Declared
import LiveShader.Proofs.Window.Shapes
import LiveShader.Proofs.Camera
import LiveShader.Proofs.Clock
import LiveShader.Proofs.Files.Overwriting
import LiveShader.Proofs.Source.Rebuilding
import LiveShader.Proofs.Source.Wrapping
import LiveShader.Proofs.Window.Choice
