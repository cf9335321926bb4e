import Tabular.Main
import Tabular.Files.Tree
import Tabular.Proofs.Regrouping
import Tabular.Proofs.GroupSummaries
import Tabular.Proofs.Joining
import Tabular.Proofs.Reading
import Tabular.Proofs.Failures
import Tabular.Proofs.GroupFilters
import Tabular.Proofs.JoinedAnswers
import Tabular.Proofs.ReadingTables
import Tabular.Proofs.Columns
import Tabular.Proofs.JoinedAggregates
import Tabular.Proofs.QuotedKeywords
import Tabular.Proofs.Outlines
import Tabular.Proofs.Footprints
import Tabular.Proofs.Confinement
import Tabular.Proofs.Observation
import Tabular.Proofs.Traces
import Tabular.Proofs.MirroredJoins
import Tabular.Proofs.Reordering
import Tabular.Proofs.CoarserGroups
import Tabular.Proofs.Commands
import Tabular.Proofs.Comparisons
import Tabular.Proofs.WellFormedQueries
import Tabular.Proofs.Surroundings
import Tabular.Proofs.AggregateForms
import Tabular.Proofs.Faults
import Tabular.Proofs.LineEnds
import Tabular.Proofs.Headers
import Tabular.Proofs.LogLines
import Tabular.Proofs.AggregateValues
import Tabular.Proofs.GroupKeys
import Tabular.Proofs.QuotedWords
import Tabular.Proofs.ConfigurationFiles
import Tabular.Proofs.TableJson
import Tabular.Proofs.RowHistories
import Tabular.Proofs.OuterCommas
import Tabular.Proofs.DecimalText
