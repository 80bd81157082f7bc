import GeometryEngine.Fixed
import GeometryEngine.Decimal
import GeometryEngine.Viewport
import GeometryEngine.Vertex
import GeometryEngine.Triangle
import GeometryEngine.Frames
import GeometryEngine.Command
import GeometryEngine.Notice
import GeometryEngine.Engine
import GeometryEngine.Words
import GeometryEngine.SaveState
import GeometryEngine.Queue
import GeometryEngine.Pipeline
import GeometryEngine.Canvas
import GeometryEngine.Renderer
import GeometryEngine.Matrix
import GeometryEngine.MatrixUnit
import GeometryEngine.VertexList
import GeometryEngine.Instruction
import GeometryEngine.Sink
import GeometryEngine.Ledger
import GeometryEngine.Registers
import GeometryEngine.FrontEnd
import GeometryEngine.SceneText
import GeometryEngine.Text
import GeometryEngine.FileTree
import GeometryEngine.Numeral
import GeometryEngine.SettingsFile
import GeometryEngine.Settings
import GeometryEngine.Device
import GeometryEngine.Transcript
import GeometryEngine.Script
import GeometryEngine.Calls
import GeometryEngine.Session
import GeometryEngine.Outlines
import GeometryEngine.Coverage
import GeometryEngine.Encoded
import GeometryEngine.ShortForms
import GeometryEngine.SettingsLines
import GeometryEngine.QueueHistory
import GeometryEngine.HandOver
import GeometryEngine.Traffic
import GeometryEngine.Assembly
import GeometryEngine.Checked
import GeometryEngine.InPlace
import GeometryEngine.Passes
import GeometryEngine.Divisors
import GeometryEngine.CheckedCalls
import GeometryEngine.Proofs.Pass
import GeometryEngine.Proofs.SaveState
import GeometryEngine.Proofs.Picture
import GeometryEngine.Proofs.SetUp
import GeometryEngine.Proofs.Commands
import GeometryEngine.Proofs.InStep
import GeometryEngine.Proofs.Still
import GeometryEngine.Proofs.InPlace
import GeometryEngine.Proofs.Thread
import GeometryEngine.Proofs.HandOver
import GeometryEngine.Proofs.Delivery
import GeometryEngine.Proofs.Instructions
import GeometryEngine.Proofs.Packets
import GeometryEngine.Proofs.Accepted
import GeometryEngine.Proofs.Lists
import GeometryEngine.Proofs.Fits
import GeometryEngine.Proofs.Access
import GeometryEngine.Proofs.Isolation
import GeometryEngine.Proofs.Conservation
import GeometryEngine.Proofs.Crowd
import GeometryEngine.Proofs.Refusals
import GeometryEngine.Proofs.Loads
import GeometryEngine.Proofs.Slopes
import GeometryEngine.Proofs.Edges
import GeometryEngine.Proofs.StartLine
import GeometryEngine.Proofs.Shown
import GeometryEngine.Proofs.Projection
import GeometryEngine.Proofs.Arrivals
import GeometryEngine.Proofs.Alike
import GeometryEngine.Proofs.CarriedOut
import GeometryEngine.Proofs.ClipMatrix
import GeometryEngine.Proofs.Nesting
import GeometryEngine.Proofs.Faults
import GeometryEngine.Proofs.Quads
import GeometryEngine.Proofs.Redraw
import GeometryEngine.Proofs.Pieces
import GeometryEngine.Proofs.Streams
import GeometryEngine.Proofs.ShortMatrices
import GeometryEngine.Proofs.ShortPoints
import GeometryEngine.Proofs.Files
import GeometryEngine.Proofs.Reading
import GeometryEngine.Proofs.Saving
import GeometryEngine.Proofs.Lines
import GeometryEngine.Proofs.Divisors
import GeometryEngine.Proofs.Planes
import GeometryEngine.Proofs.Stacks
import GeometryEngine.Proofs.Orderly
