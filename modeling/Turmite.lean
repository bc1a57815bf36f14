import Turmite.Board
import Turmite.Main
import Turmite.Proofs.Chaining
import Turmite.Proofs.DrawnWalk
import Turmite.Proofs.ProgramDocument
import Turmite.Proofs.Session
import Turmite.Proofs.PointStops
import Turmite.Proofs.Correspondence
import Turmite.Proofs.LazyStart
import Turmite.Proofs.NearestValue
import Turmite.Proofs.FloatProduct
import Turmite.Proofs.PathText
import Turmite.Proofs.FileStore
import Turmite.Proofs.CompileStages
import Turmite.Proofs.RuleTables
import Turmite.Proofs.Publication
import Turmite.Proofs.Escapes
import Turmite.Proofs.SettingOrder
import Turmite.Proofs.BadInput
import Turmite.Proofs.NearestNeighbour
import Turmite.Proofs.BlankCompilation
import Turmite.Proofs.RefusedImage
import Turmite.Proofs.Outcome
import Turmite.Proofs.Resumption
import Turmite.Proofs.Seams
import Turmite.Proofs.AxisTravel
import Turmite.Proofs.FilledRectangle
import Turmite.Proofs.PayloadGroups
import Turmite.Proofs.TableRows
import Turmite.Proofs.GridFiles
import Turmite.Proofs.ImageContent
import Turmite.Proofs.HexColors
import Turmite.Proofs.Resolution
import Turmite.Proofs.UsableConstants
import Turmite.Proofs.LastRule
