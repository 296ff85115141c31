import AnswerCheck.Main
import AnswerCheck.Proofs.Answer.Ascending
import AnswerCheck.Proofs.Answer.ConfirmedRoots
import AnswerCheck.Proofs.Answer.OtherLines
import AnswerCheck.Proofs.Answer.ReadBack
import AnswerCheck.Proofs.Answer.RequestedPlaces
import AnswerCheck.Proofs.Answer.SpelledLine
import AnswerCheck.Proofs.Answer.StatedOrder
import AnswerCheck.Proofs.Answer.StatedRoot
import AnswerCheck.Proofs.Expr.Acceptance
import AnswerCheck.Proofs.Expr.Nesting
import AnswerCheck.Proofs.Expr.PlainValue
import AnswerCheck.Proofs.Expr.Printing
import AnswerCheck.Proofs.Expr.Sizes
import AnswerCheck.Proofs.Expr.Unbounded
import AnswerCheck.Proofs.Prompt.SurroundingBlanks
import AnswerCheck.Proofs.Search.ExactScan
import AnswerCheck.Proofs.Search.GridZeros
import AnswerCheck.Proofs.Search.Mirroring
import AnswerCheck.Proofs.Search.NarrowedGrid
import AnswerCheck.Proofs.Spelling.BareRadicands
import AnswerCheck.Proofs.Spelling.RaisedPowers
import AnswerCheck.Proofs.Spelling.Shape
import AnswerCheck.Proofs.Spelling.ShownNumbers
import AnswerCheck.Proofs.Spelling.StarredPowers
import AnswerCheck.Proofs.Spelling.StrippedDelimiters
import AnswerCheck.Proofs.Typesetting.Passages
import AnswerCheck.Proofs.Typesetting.Value
